import Samwise.Scheduler.Scheduler

/-!
# Samwise — what one dispatch does to burn wires and flash

The trace of a `sched_dispatch` has one of three shapes, `DispatchTrace`: harmless from end
to end, one burn and its count, or one reset of the count. Each task and each transition is
harmless on its own, except the burn-wire task and the transition out of the reset state;
the shapes are put together from that.
-/

namespace Samwise

/-! ## Harmless tasks -/

theorem dispatchCommand_harmless (packet : Packet) :
    (dispatchCommand packet).Emits Effect.Harmless := by
  refine .bind (.of_silent fun _ _ => ⟨rfl, rfl⟩) fun _ => ?_
  cases Command.ofByte packet.data[0] with
  | none => exact .pure _
  | some command =>
    cases command with
    | ping => exact .of_silent fun _ _ => ⟨rfl, rfl⟩
    | payloadExec => exact .of_silent fun _ _ => ⟨rfl, rfl⟩
    | payloadTurnOn =>
      refine .bind (.emit ⟨rfl, rfl⟩) fun _ => ?_
      exact .of_silent fun _ _ => ⟨rfl, rfl⟩
    | payloadTurnOff =>
      refine .bind (.of_silent fun _ _ => ⟨rfl, rfl⟩) fun slate => ?_
      refine .ite (fun _ => .pure _) fun _ => ?_
      refine .bind (.emit ⟨rfl, rfl⟩) fun _ => .bind (.emit ⟨rfl, rfl⟩) fun _ => ?_
      exact .of_silent fun _ _ => ⟨rfl, rfl⟩
    | manualStateOverride => exact .of_silent fun _ _ => ⟨rfl, rfl⟩
    | adcsExec => exact .emit ⟨rfl, rfl⟩
    | adcsPacket => exact .pure _

section Traces

variable (hmac : Hmac) (psk : Option PacketHmacPsk)

theorem commandTaskDispatch_harmless :
    (commandTaskDispatch hmac psk).Emits Effect.Harmless := by
  refine .bind (.of_silent fun _ _ => ⟨rfl, rfl⟩) fun slate => ?_
  rcases slate.rxQueue.tryRemove with ⟨_ | packet, rxQueue⟩
  · exact .pure _
  · refine .bind (.of_silent fun _ _ => ⟨rfl, rfl⟩) fun _ => ?_
    refine .bind (.of_silent fun _ _ => ⟨rfl, rfl⟩) fun lastSeenMsgId => ?_
    refine .bind (.of_silent fun _ _ => ⟨rfl, rfl⟩) fun _ => ?_
    exact .when fun _ => dispatchCommand_harmless packet

/-- Every task but the burn wire's is harmless. -/
theorem taskDispatch_harmless {task : Task} (h : task ≠ .burnWireTask) :
    (task.taskDispatch hmac psk).Emits Effect.Harmless := by
  cases task with
  | printTask => exact .pure _
  | watchdogTask => exact watchdogFeed_harmless
  | beaconTask => exact .of_silent fun _ _ => ⟨rfl, rfl⟩
  | telemetryTask => exact .of_silent fun _ _ => ⟨rfl, rfl⟩
  | adcsTask =>
    exact .bind (.emit ⟨rfl, rfl⟩) fun _ => .bind (.emit ⟨rfl, rfl⟩) fun _ => .emit ⟨rfl, rfl⟩
  | radioTask => exact .of_silent fun _ _ => ⟨rfl, rfl⟩
  | commandTask => exact commandTaskDispatch_harmless hmac psk
  | burnWireTask => exact absurd rfl h

theorem dispatchIfDue_harmless {task : Task} (h : task ≠ .burnWireTask) :
    (dispatchIfDue hmac psk task).Emits Effect.Harmless := by
  refine .bind (.of_silent fun _ _ => ⟨rfl, rfl⟩) fun deadline => ?_
  refine .bind (.of_silent fun _ _ => ⟨rfl, rfl⟩) fun now => .when fun _ => ?_
  refine .bind (.of_silent fun _ _ => ⟨rfl, rfl⟩) fun next => ?_
  exact .bind (.of_silent fun _ _ => ⟨rfl, rfl⟩) fun _ => taskDispatch_harmless hmac psk h

/-! ## Harmless transitions -/

theorem burnWireGetNextState_harmless : burnWireGetNextState.Emits Effect.Harmless := by
  refine .bind (.of_silent fun _ _ => ⟨rfl, rfl⟩) fun panelA => ?_
  refine .bind (.of_silent fun _ _ => ⟨rfl, rfl⟩) fun panelB => ?_
  refine .bind (.of_silent fun _ _ => ⟨rfl, rfl⟩) fun _ => .ite (fun _ => .pure _) fun _ => ?_
  exact .bind (.of_silent fun _ _ => ⟨rfl, rfl⟩) fun attempts =>
    .ite (fun _ => .pure _) fun _ => .pure _

/-- Every state but the reset state decides its successor without an effect. -/
theorem getNextState_harmless {id : StateId} {info : SchedState}
    (h : stateRegistryGet id = some info) (hid : id ≠ .stateBurnWireReset) :
    info.getNextState.Emits Effect.Harmless := by
  cases id with
  | stateInit =>
    obtain rfl := Option.some.inj h
    exact .of_silent fun _ _ => ⟨rfl, rfl⟩
  | stateRunning =>
    obtain rfl := Option.some.inj h
    exact .pure _
  | stateBurnWire =>
    obtain rfl := Option.some.inj h
    exact burnWireGetNextState_harmless
  | stateBurnWireReset => exact absurd rfl hid
  | stateNone => simp [stateRegistryGet] at h
  | stateBringup => simp [stateRegistryGet] at h

theorem enterState_harmless (nextStateId : StateId) :
    (enterState nextStateId).Emits Effect.Harmless := by
  refine .bind (.of_silent fun _ _ => ⟨rfl, rfl⟩) fun slate => .when fun _ => ?_
  refine .bind (.when fun _ => .emit ⟨rfl, rfl⟩) fun _ => ?_
  exact .of_silent fun _ _ => ⟨rfl, rfl⟩

/-! ## The three shapes -/

/-- What a dispatch that starts with the record `d` in flash can have done. -/
inductive DispatchTrace (d : PersistentData) : List Effect → Prop where
  | harmless {t : List Effect} (ht : ∀ e ∈ t, e.Harmless) : DispatchTrace d t
  | burn {burn rest : List Effect} (hattempts : d.burnWireAttempts.toNat < maxBurnWireAttempts)
      (hburn : ∀ e ∈ burn, e.isWrite = false) (hrest : ∀ e ∈ rest, e.Harmless) :
      DispatchTrace d (burn ++
        .writePersistentData .incrementBurnWireAttempts (incrementBurnWireAttempts d) :: rest)
  | reset {before rest : List Effect} (hbefore : ∀ e ∈ before, e.Harmless)
      (hrest : ∀ e ∈ rest, e.Harmless) :
      DispatchTrace d (before ++
        .writePersistentData .resetBurnWireAttempts (resetBurnWireAttempts d) :: rest)

/-- A shape stays what it is when harmless effects follow. -/
theorem DispatchTrace.append {d : PersistentData} {t u : List Effect} (ht : DispatchTrace d t)
    (hu : ∀ e ∈ u, e.Harmless) : DispatchTrace d (t ++ u) := by
  have happend : ∀ {r : List Effect}, (∀ e ∈ r, e.Harmless) → ∀ e ∈ r ++ u, e.Harmless := by
    intro r hr e he
    rcases List.mem_append.mp he with he | he
    · exact hr e he
    · exact hu e he
  cases ht with
  | harmless ht => exact .harmless (happend ht)
  | burn hattempts hburn hrest =>
    rw [List.append_assoc, List.cons_append]
    exact .burn hattempts hburn (happend hrest)
  | reset hbefore hrest =>
    rw [List.append_assoc, List.cons_append]
    exact .reset hbefore (happend hrest)

/-- And when harmless effects come before it. -/
theorem DispatchTrace.prepend {d : PersistentData} {t u : List Effect} (hu : ∀ e ∈ u, e.Harmless)
    (ht : DispatchTrace d t) : DispatchTrace d (u ++ t) := by
  cases ht with
  | harmless ht =>
    refine .harmless fun e he => ?_
    rcases List.mem_append.mp he with he | he
    · exact hu e he
    · exact ht e he
  | burn hattempts hburn hrest =>
    rw [← List.append_assoc]
    refine .burn hattempts (fun e he => ?_) hrest
    rcases List.mem_append.mp he with he | he
    · exact (hu e he).2
    · exact hburn e he
  | reset hbefore hrest =>
    rw [← List.append_assoc]
    refine .reset (fun e he => ?_) hrest
    rcases List.mem_append.mp he with he | he
    · exact hu e he
    · exact hbefore e he

/-- The program, from `w` on, does what a dispatch can do. -/
def Dispatches {α : Type} (x : Flight α) (env : Env) (w : World) : Prop :=
  ∃ t, (x.run env w).2.trace = w.trace ++ t ∧ (x.run env w).2.flash = w.flash ∧
    DispatchTrace w.persistent t

theorem Dispatches.of_harmless {α : Type} {x : Flight α} (hx : x.Emits Effect.Harmless)
    (env : Env) (w : World) : Dispatches x env w := by
  obtain ⟨t, htrace, hflash, ht⟩ := hx env w
  exact ⟨t, htrace, hflash, .harmless ht⟩

/-- Harmless effects do not change the record. -/
theorem persistent_of_harmless {α : Type} {x : Flight α} (hx : x.Emits Effect.Harmless)
    (env : Env) (w : World) : (x.run env w).2.persistent = w.persistent := by
  obtain ⟨t, htrace, hflash, ht⟩ := hx env w
  rw [World.persistent, hflash, htrace, flashAfter_append,
    flashAfter_of_no_write fun e he => (ht e he).2, World.persistent]

theorem Dispatches.bind_harmless {α β : Type} {x : Flight α} {f : α → Flight β} {env : Env}
    {w : World} (hx : Dispatches x env w) (hf : ∀ a, (f a).Emits Effect.Harmless) :
    Dispatches (x >>= f) env w := by
  obtain ⟨t, htrace, hflash, ht⟩ := hx
  obtain ⟨u, hutrace, huflash, hu⟩ := hf (x.run env w).1 env (x.run env w).2
  refine ⟨t ++ u, ?_, huflash.trans hflash, ht.append hu⟩
  rw [Flight.run_bind, hutrace, htrace, List.append_assoc]

/-- After a harmless program, what follows decides the shape. -/
theorem Dispatches.harmless_bind {α β : Type} {x : Flight α} {f : α → Flight β} {env : Env}
    {w : World} (hx : x.Emits Effect.Harmless)
    (hf : Dispatches (f (x.run env w).1) env (x.run env w).2) : Dispatches (x >>= f) env w := by
  obtain ⟨t, ht, hfl, hshape⟩ := hf
  rw [persistent_of_harmless hx] at hshape
  obtain ⟨u, htrace, hflash, hu⟩ := hx env w
  refine ⟨u ++ t, ?_, hfl.trans hflash, hshape.prepend hu⟩
  rw [Flight.run_bind, ht, htrace, List.append_assoc]

/-- The same, where the program emits nothing at all. -/
theorem Dispatches.silent_bind {α β : Type} {x : Flight α} {f : α → Flight β} {env : Env}
    {w : World}
    (hx : ∀ env w, (x.run env w).2.trace = w.trace ∧ (x.run env w).2.flash = w.flash)
    (hf : Dispatches (f (x.run env w).1) env (x.run env w).2) : Dispatches (x >>= f) env w :=
  .harmless_bind (.of_silent hx) hf

theorem burnWireTaskDispatch_dispatches (env : Env) (w : World) :
    Dispatches burnWireTaskDispatch env w := by
  obtain ⟨hflash, htrace⟩ := burnWireTaskDispatch_trace env w
  split at htrace
  · exact ⟨[], by rw [htrace, List.append_nil], hflash, .harmless (by simp)⟩
  · next hburns =>
    obtain ⟨burn, _, hburn, htrace⟩ := htrace
    refine ⟨_, by rw [htrace, List.append_assoc], hflash, ?_⟩
    exact .burn (Nat.not_le.mp (not_or.mp hburns).2) hburn (by simp)

theorem dispatchIfDue_dispatches (task : Task) (env : Env) (w : World) :
    Dispatches (dispatchIfDue hmac psk task) env w := by
  by_cases htask : task = .burnWireTask
  · subst htask
    refine .silent_bind (fun _ _ => ⟨rfl, rfl⟩) (.silent_bind (fun _ _ => ⟨rfl, rfl⟩) ?_)
    rw [Flight.when]
    split
    · exact .silent_bind (fun _ _ => ⟨rfl, rfl⟩) (.silent_bind (fun _ _ => ⟨rfl, rfl⟩) (burnWireTaskDispatch_dispatches env _))
    · exact .of_harmless (.pure _) env _
  · exact .of_harmless (dispatchIfDue_harmless hmac psk htask) env w

/-- The choice of the next state is harmless, or it is the reset of the attempts. -/
theorem chooseNextState_harmless {id : StateId} {info : SchedState}
    (h : stateRegistryGet id = some info) (hid : id ≠ .stateBurnWireReset) :
    (chooseNextState info).Emits Effect.Harmless := by
  refine .bind (.of_silent fun _ _ => ⟨rfl, rfl⟩) fun slate => ?_
  refine .ite (fun _ => ?_) fun _ => getNextState_harmless h hid
  refine .bind (.when fun _ => .emit ⟨rfl, rfl⟩) fun _ => ?_
  exact .of_silent fun _ _ => ⟨rfl, rfl⟩

theorem chooseNextState_dispatches {id : StateId} {info : SchedState}
    (h : stateRegistryGet id = some info) (env : Env) (w : World) :
    Dispatches (chooseNextState info) env w := by
  by_cases hid : id = .stateBurnWireReset
  · subst hid
    obtain rfl := Option.some.inj h
    refine .silent_bind (fun _ _ => ⟨rfl, rfl⟩) ?_
    rw [Flight.run_slate]
    by_cases hoverride : w.slate.manualOverrideStateId ≠ .stateNone
    · rw [if_pos hoverride]
      refine .of_harmless (.bind (.when fun _ => .emit ⟨rfl, rfl⟩) fun _ => ?_) env w
      exact .of_silent fun _ _ => ⟨rfl, rfl⟩
    · rw [if_neg hoverride]
      exact ⟨_, rfl, rfl, .reset (List.forall_mem_nil _) (List.forall_mem_nil _)⟩
  · exact .of_harmless (chooseNextState_harmless h hid) env w

theorem schedDispatch_run {env : Env} {w : World} {info : SchedState}
    (h : stateRegistryGet w.slate.currentStateId = some info) :
    (schedDispatch hmac psk).run env w =
      (info.taskList.forM (dispatchIfDue hmac psk) >>= fun _ =>
        schedDispatchRest info).run env w := by
  simp only [schedDispatch, Flight.run_bind, Flight.run_slate, h]

/-- **What a dispatch can have done.** One of the three shapes, from whatever world. Only the
burn-wire state has the burn-wire task, and it has no other. -/
theorem schedDispatch_dispatches (env : Env) (w : World) :
    Dispatches (schedDispatch hmac psk) env w := by
  cases hinfo : stateRegistryGet w.slate.currentStateId with
  | none =>
    refine .silent_bind (fun _ _ => ⟨rfl, rfl⟩) ?_
    rw [Flight.run_slate, hinfo]
    exact .of_harmless (.emit ⟨rfl, rfl⟩) env w
  | some info =>
    rw [Dispatches, schedDispatch_run hmac psk hinfo]
    by_cases hid : w.slate.currentStateId = .stateBurnWire
    · rw [hid] at hinfo
      -- behind the tasks nothing is written
      have hfinish : (schedDispatchRest info).Emits Effect.Harmless := by
        refine .bind (.of_silent fun _ _ => ⟨rfl, rfl⟩) fun now => ?_
        refine .bind (.of_silent fun _ _ => ⟨rfl, rfl⟩) fun _ => ?_
        exact .bind (chooseNextState_harmless hinfo (by simp)) fun next => enterState_harmless next
      obtain rfl := Option.some.inj hinfo
      refine Dispatches.bind_harmless ?_ fun _ => hfinish
      exact Dispatches.bind_harmless (dispatchIfDue_dispatches hmac psk _ env w) fun _ => .pure _
    · -- in the other states no task burns
      have htasks : ∀ task ∈ info.taskList, task ≠ .burnWireTask := by
        cases hcur : w.slate.currentStateId <;> rw [hcur] at hinfo hid <;>
          simp only [stateRegistryGet, reduceCtorEq, Option.some.injEq] at hinfo
        · subst hinfo; simp [initState]
        · subst hinfo; simp [runningState]
        · exact absurd rfl hid
        · subst hinfo; simp [burnWireResetState]
      refine Dispatches.harmless_bind
        (.forM fun task htask => dispatchIfDue_harmless hmac psk (htasks task htask)) ?_
      refine .silent_bind (fun _ _ => ⟨rfl, rfl⟩) (.silent_bind (fun _ _ => ⟨rfl, rfl⟩) ?_)
      exact Dispatches.bind_harmless (chooseNextState_dispatches hinfo env _)
        fun next => enterState_harmless next

end Traces

end Samwise
