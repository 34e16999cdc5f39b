import Samwise.BurnWire.BurnPins
import Samwise.Scheduler.BurnBudget
import Samwise.Scheduler.SchedulerSafety

/-!
# Samwise — the main loop, call by call

The loop of `main` as a machine whose steps are whole calls of `sched_dispatch`, with packets
received and sent in between. `World.Resting` is what holds between two calls, after any boot:
the current state is registered, no override is pending, and the burn wires are off.
-/

namespace Samwise

open Run

/-! ## The machine -/

section MainLoop

variable (hmac : Hmac) (psk : Option PacketHmacPsk)

/-- A call of `sched_dispatch`, or an interrupt between two calls. -/
inductive LoopEvent where
  | dispatch (env : Env)
  | rxDone (packet : Packet)
  | txDone

def loopStep (w : World) : LoopEvent → Option World
  | .dispatch env => some ((schedDispatch hmac psk).run env w).2
  | .rxDone packet => some { w with
      slate := { w.slate with rxQueue := (w.slate.rxQueue.tryAdd packet).2 } }
  | .txDone => some { w with
      slate := { w.slate with txQueue := w.slate.txQueue.tryRemove.2 } }

/-- What holds between two calls. -/
structure World.Resting (w : World) : Prop where
  registered : w.slate.currentStateId.Registered
  cleared : w.slate.manualOverrideStateId = .stateNone
  burnPins : w.burnPins = .off

variable {hmac psk}

/-! ## A boot -/

theorem mainInit_resting (d : PersistentData) (env : Env) :
    (mainInit.run env (World.atReset d)).2.Resting := by
  obtain ⟨hcurrent, hcleared⟩ := mainInit_state d env
  refine ⟨⟨initState, by rw [hcurrent]; rfl⟩, hcleared, ?_⟩
  have hsleep : ∀ ms, (safeSleepMs ms).Emits fun e => e.raisesBurnPin = false := fun ms =>
    ((safeSleepMs_routine (O := fun _ => False) ms).emits).mono fun _ => raisesBurnPin_of_quiet
  have hwatchdog : watchdogInit.Emits fun e => e.raisesBurnPin = false :=
    ((watchdogInit_routine (O := fun _ => False)).emits).mono fun _ => raisesBurnPin_of_quiet
  have hinit : schedInit.Emits fun e => e.raisesBurnPin = false := by
    refine .bind (.forM fun task _ => ?_) fun _ => ?_
    · cases task <;> exact .of_silent fun _ _ => ⟨rfl, rfl⟩
    · refine .bind (.forM fun task _ => .of_silent fun _ _ => ⟨rfl, rfl⟩) fun _ => ?_
      exact .of_silent fun _ _ => ⟨rfl, rfl⟩
  refine burnPins_of_emits ?_ env rfl
  refine .bind (.bind (.emit rfl) fun _ => .bind (.of_silent fun _ _ => ⟨rfl, rfl⟩) fun _ =>
    .bind hwatchdog fun _ => hsleep _) fun _ => ?_
  -- the record is loaded and counted, and `burn_wire_init` switches everything off
  have hupdate : ∀ u, (Flight.update u).Emits fun e => e.raisesBurnPin = false :=
    fun u _ w => ⟨[_], rfl, rfl, by simp [Effect.raisesBurnPin]⟩
  refine .bind (hupdate _) fun data => .bind (hupdate _) fun _ => ?_
  refine .bind (.bind (.emit rfl) fun _ => .bind (.emit rfl) fun _ => .emit rfl) fun _ => ?_
  exact .bind hinit fun _ => .of_silent fun _ _ => ⟨rfl, rfl⟩

/-! ## A call -/

/-- The rounds of a call leave the current state, and a pending override is a valid one. -/
structure World.SameState (w w' : World) : Prop where
  currentStateId : w'.slate.currentStateId = w.slate.currentStateId
  override : w'.slate.manualOverrideStateId = w.slate.manualOverrideStateId ∨
    w'.slate.manualOverrideStateId.Overrides

instance : IsPreorder World World.SameState where
  refl _ := ⟨rfl, Or.inl rfl⟩
  trans _ _ _ h h' := by
    refine ⟨h'.currentStateId.trans h.currentStateId, ?_⟩
    rcases h'.override with hsame | hset
    · rw [hsame]
      exact h.override
    · exact Or.inr hset

theorem dispatchIfDue_sameState (task : Task) :
    (dispatchIfDue hmac psk task).Steps World.SameState := by
  intro env w
  rw [dispatchIfDue_run]
  have hlook : World.SameState w ((isDue task).run env w).2 := by
    rw [isDue_run]
    split
    · exact ⟨rfl, Or.inl rfl⟩
    · exact ⟨rfl, Or.inl rfl⟩
  split
  · have hroutine := taskDispatch_routine hmac psk task env ((isDue task).run env w).2
    exact trans_of World.SameState hlook ⟨hroutine.currentStateId, hroutine.override⟩
  · exact hlook

/-- The world a call is in once its rounds are over. -/
def afterRounds (hmac : Hmac) (psk : Option PacketHmacPsk) (env : Env) (info : SchedState)
    (w : World) : World :=
  ((info.taskList.forM (dispatchIfDue hmac psk)).run env w).2

theorem afterRounds_sameState (env : Env) (info : SchedState) (w : World) :
    World.SameState w (afterRounds hmac psk env info w) := by
  have hrounds : (info.taskList.forM (dispatchIfDue hmac psk)).Steps World.SameState :=
    .forM fun task _ => dispatchIfDue_sameState task
  exact hrounds env w

/-- A call is its rounds and its end. -/
theorem schedDispatch_afterRounds (env : Env) {w : World} {info : SchedState}
    (hinfo : stateRegistryGet w.slate.currentStateId = some info) :
    ((schedDispatch hmac psk).run env w).2
      = ((schedDispatchRest info).run env (afterRounds hmac psk env info w)).2 := by
  rw [schedDispatch_run hmac psk hinfo]
  rfl

/-- The end of a call, behind its rounds. -/
theorem schedDispatch_transition (env : Env) {w : World} {info : SchedState}
    (hinfo : stateRegistryGet w.slate.currentStateId = some info)
    (hcleared : w.slate.manualOverrideStateId = .stateNone) :
    (afterRounds hmac psk env info w).Transition env ((schedDispatch hmac psk).run env w).2 := by
  have hsame : World.SameState w (afterRounds hmac psk env info w) := afterRounds_sameState env info w
  rw [schedDispatch_afterRounds env hinfo]
  refine schedDispatchRest_run env (hsame.currentStateId ▸ hinfo) ?_
  rcases hsame.override with hkept | hset
  · exact Or.inl (hkept.trans hcleared)
  · exact hset

end MainLoop

end Samwise
