import Mathlib.Data.List.Perm.Subperm
import Samwise.Lib.Collect
import Samwise.Scheduler.SchedulerSafety

/-!
# Samwise — which tasks `sched_init` finds

`src/scheduler/state_registry.c` and `sched_init` for states of any type `S` and tasks at addresses
of any type `T`, so that states may share tasks as they like. The arrays have their bounds here: a
store behind the end of `ordered_states` or `all_tasks` is a fault, and so is a failed assertion.
With the states and tasks of the flight it is the `schedInit` of the scheduler's model.
-/

namespace Samwise

/-- The value of an enumerator. -/
def StateId.value : StateId → Int
  | .stateNone => -1
  | .stateInit => 0
  | .stateRunning => 1
  | .stateBurnWire => 2
  | .stateBurnWireReset => 3
  | .stateBringup => 4

/-- `STATE_COUNT`. -/
def stateCount : Nat := 5

/-- `MAX_TASKS_PER_STATE`. -/
def maxTasksPerState : Nat := 10

/-- The id is one of an entry of `registry`. -/
def StateId.InRange (id : StateId) : Prop := 0 ≤ id.value ∧ id.value < stateCount

instance (id : StateId) : Decidable id.InRange := by unfold StateId.InRange; infer_instance

/-- The values in range are different indices. -/
theorem StateId.toNat_value_ne {id id' : StateId} (h : id.InRange) (h' : id'.InRange)
    (hne : id ≠ id') : id'.value.toNat ≠ id.value.toNat := by
  have hvalue : id'.value ≠ id.value := by
    cases id <;> cases id' <;> first | exact absurd rfl hne | decide
  obtain ⟨hlow, _⟩ := h
  obtain ⟨hlow', _⟩ := h'
  omega

namespace TaskEnumeration

/-- Why `sched_init` does not come to its end. -/
inductive SchedFault where
  | assertion
  | outOfBounds
deriving DecidableEq

/-! ## The registry -/

/-- The statics of `state_registry.c`; of `ordered_states`, the entries below `num_registered`. -/
structure StateTable (S : Type) where
  registry : Vector (Option S) stateCount
  orderedStates : List S

namespace StateTable

variable {S : Type}

/-- At boot. -/
def empty : StateTable S := ⟨Vector.replicate stateCount none, []⟩

/-- `state_registry_get`. -/
def get (r : StateTable S) (id : StateId) : Option S :=
  if id.InRange then (r.registry[id.value.toNat]?).join else none

/-- `state_registry_register`: the first registration of an id stands. -/
def register (r : StateTable S) (id : StateId) (state : S) : Except SchedFault (StateTable S) :=
  if id.InRange ∧ (r.get id).isNone = true then
    if r.orderedStates.length < stateCount then
      .ok {
        registry := r.registry.setIfInBounds id.value.toNat (some state)
        orderedStates := r.orderedStates ++ [state] }
    else .error .outOfBounds
  else .ok r

/-- Registrations, one after the other. -/
def registerAll (r : StateTable S) : List (StateId × S) → Except SchedFault (StateTable S)
  | [] => .ok r
  | (id, state) :: rest => do
    let r ← r.register id state
    r.registerAll rest

/-- `ids` are the registered ones, in their order. -/
structure Lists (r : StateTable S) (ids : List StateId) : Prop where
  nodup : ids.Nodup
  inRange : ∀ id ∈ ids, id.InRange
  get : ∀ id, (r.get id).isSome = true ↔ id ∈ ids
  ordered : ids.map r.get = r.orderedStates.map some

theorem get_empty (id : StateId) : (empty : StateTable S).get id = none := by
  cases id <;> rfl

theorem empty_lists : (empty : StateTable S).Lists [] := by
  refine ⟨List.nodup_nil, ?_, ?_, rfl⟩
  · intro id hid
    cases hid
  · intro id
    rw [get_empty]
    simp

/-- There are no more ids in range than `STATE_COUNT`. -/
theorem length_le_stateCount {ids : List StateId} (hnodup : ids.Nodup)
    (hrange : ∀ id ∈ ids, id.InRange) : ids.length ≤ stateCount := by
  have hsub : ids ⊆ [.stateInit, .stateRunning, .stateBurnWire, .stateBurnWireReset,
      .stateBringup] := by
    intro id hid
    have hin := hrange id hid
    cases id with
    | stateNone => exact absurd hin (by decide)
    | _ => decide
  exact (List.subperm_of_subset hnodup hsub).length_le

/-- The registry behind a registration. -/
theorem get_registered {r : StateTable S} {id : StateId} (hrange : id.InRange) (state : S)
    (orderedStates : List S) (id' : StateId) :
    get ⟨r.registry.setIfInBounds id.value.toNat (some state), orderedStates⟩ id'
      = if id' = id then some state else r.get id' := by
  unfold get
  by_cases hid : id' = id
  · subst hid
    have hlt : id'.value.toNat < stateCount := by
      obtain ⟨hlow, hhigh⟩ := hrange
      omega
    rw [if_pos hrange, if_pos rfl, Vector.getElem?_setIfInBounds_self_of_lt hlt]
    rfl
  · rw [if_neg hid]
    by_cases hrange' : id'.InRange
    · have hindex := StateId.toNat_value_ne hrange' hrange hid
      rw [if_pos hrange', if_pos hrange', Vector.getElem?_setIfInBounds_ne hindex]
    · rw [if_neg hrange', if_neg hrange']

/-- **Registering**: a new id in range is added at the end, and there is room for it. -/
theorem register_lists {r : StateTable S} {ids : List StateId} (hr : r.Lists ids) (id : StateId)
    (state : S) : ∃ r' ids', r.register id state = .ok r' ∧ r'.Lists ids' := by
  by_cases hnew : id.InRange ∧ (r.get id).isNone = true
  · have hid : id ∉ ids := by
      rw [← hr.get id, Option.isNone_iff_eq_none.mp hnew.2]
      exact Bool.false_ne_true
    have hnodup : (ids ++ [id]).Nodup := by
      rw [← List.concat_eq_append]
      exact hr.nodup.concat hid
    have hrange : ∀ id' ∈ ids ++ [id], id'.InRange := by
      intro id' hmem
      rcases List.mem_append.mp hmem with hold | hone
      · exact hr.inRange id' hold
      · rw [List.mem_singleton.mp hone]
        exact hnew.1
    have hroom : r.orderedStates.length < stateCount := by
      have hcount := length_le_stateCount hnodup hrange
      have hordered := congrArg List.length hr.ordered
      rw [List.length_map, List.length_map] at hordered
      rw [List.length_append, List.length_singleton] at hcount
      omega
    have hget := get_registered (r := r) hnew.1 state (r.orderedStates ++ [state])
    refine ⟨_, ids ++ [id], (if_pos hnew).trans (if_pos hroom), hnodup, hrange, ?_, ?_⟩
    · intro id'
      rw [hget id', List.mem_append, List.mem_singleton]
      split
      · next heq => exact iff_of_true rfl (Or.inr heq)
      · next hne => rw [hr.get id', or_iff_left hne]
    · -- the states before keep their place
      have hkept : ids.map (get ⟨r.registry.setIfInBounds id.value.toNat (some state),
          r.orderedStates ++ [state]⟩) = ids.map r.get := by
        apply List.map_congr_left
        intro id' hmem
        have hne : id' ≠ id := fun heq => hid (heq ▸ hmem)
        rw [hget id', if_neg hne]
      rw [List.map_append, List.map_append, hkept, hr.ordered, List.map_singleton,
        List.map_singleton, hget id, if_pos rfl]
  · exact ⟨r, ids, if_neg hnew, hr⟩

theorem registerAll_lists {r : StateTable S} {ids : List StateId} (hr : r.Lists ids)
    (registrations : List (StateId × S)) :
    ∃ r' ids', r.registerAll registrations = .ok r' ∧ r'.Lists ids' := by
  induction registrations generalizing r ids with
  | nil => exact ⟨r, ids, rfl, hr⟩
  | cons registration rest ih =>
    obtain ⟨r₁, ids₁, hfirst, hr₁⟩ := register_lists hr registration.1 registration.2
    obtain ⟨r', ids', hrest, hr'⟩ := ih hr₁
    refine ⟨r', ids', ?_, hr'⟩
    show (r.register registration.1 registration.2 >>= fun r => r.registerAll rest) = _
    rw [hfirst]
    exact hrest

theorem registerAll_append (r : StateTable S) (xs ys : List (StateId × S)) :
    r.registerAll (xs ++ ys) = r.registerAll xs >>= fun r => r.registerAll ys := by
  induction xs generalizing r with
  | nil => rfl
  | cons x xs ih =>
    show (r.register x.1 x.2 >>= fun r => r.registerAll (xs ++ ys)) = _
    show _ = (r.register x.1 x.2 >>= fun r => r.registerAll xs) >>= _
    cases r.register x.1 x.2 with
    | error fault => rfl
    | ok r' => exact ih r'

/-- No more states are registered than there are ids. -/
theorem Lists.length_orderedStates_le {r : StateTable S} {ids : List StateId} (hr : r.Lists ids) :
    r.orderedStates.length ≤ stateCount := by
  have hlength := congrArg List.length hr.ordered
  rw [List.length_map, List.length_map] at hlength
  rw [← hlength]
  exact length_le_stateCount hr.nodup hr.inRange

/-- The states in order are those of the registry. -/
theorem Lists.mem_orderedStates {r : StateTable S} {ids : List StateId} (hr : r.Lists ids)
    {state : S} : state ∈ r.orderedStates ↔ ∃ id, r.get id = some state := by
  have hmem : state ∈ r.orderedStates ↔ some state ∈ ids.map r.get := by
    rw [hr.ordered, List.mem_map_of_injective (Option.some_injective S)]
  rw [hmem, List.mem_map]
  constructor
  · rintro ⟨id, _, hget⟩
    exact ⟨id, hget⟩
  · rintro ⟨id, hget⟩
    refine ⟨id, (hr.get id).mp ?_, hget⟩
    rw [hget]
    rfl

/-- **An id that is registered stays as it is**, whatever is registered for it again. -/
theorem register_of_some {r : StateTable S} {id : StateId} {state : S}
    (h : r.get id = some state) (state' : S) : r.register id state' = .ok r := by
  have hold : ¬(id.InRange ∧ (r.get id).isNone = true) := by
    rw [h]
    rintro ⟨_, hnone⟩
    cases hnone
  exact if_neg hold

end StateTable

/-! ## The scheduler's statics -/

/-- What `sched_init` does to a task. -/
inductive TaskCall (T : Type) where
  | taskInit (task : T)
  | setNextDispatch (task : T)
deriving DecidableEq

/-- What a build fixes: the entries of `task_list` below `num_tasks`, the period and the `task_init`
of a task, and the states that `sched_init` registers itself; `bringupState` is there where
`BRINGUP` is defined. -/
structure Build (S T : Type) where
  taskList : S → List T
  dispatchPeriodMs : T → UInt32
  taskInit : T → Slate → Slate
  initState : S
  runningState : S
  burnWireState : S
  burnWireResetState : S
  bringupState : Option S

/-- The registry, the entries of `all_tasks` below `n_tasks`, the tasks' `next_dispatch`, the slate,
how often the clock was read, and what was done to the tasks. -/
structure SchedMemory (S T : Type) where
  states : StateTable S
  allTasks : List T
  nextDispatch : T → UInt64
  slate : Slate
  samples : Nat
  trace : List (TaskCall T)

section SchedInit

variable {S T : Type} [DecidableEq T] (b : Build S T) (clock : Nat → UInt64)

/-- The registrations of `sched_init`. -/
def Build.registrations : List (StateId × S) :=
  [(.stateInit, b.initState), (.stateRunning, b.runningState), (.stateBurnWire, b.burnWireState),
    (.stateBurnWireReset, b.burnWireResetState)] ++
  match b.bringupState with
  | some state => [(.stateBringup, state)]
  | none => []

/-- The search through `all_tasks`. -/
def isDuplicate (allTasks : List T) (task : T) : Bool :=
  allTasks.foldl (fun isDuplicate entry => if entry = task then true else isDuplicate) false

/-- The body of the loop over the tasks of a state. -/
def addTask (allTasks : List T) (task : T) : Except SchedFault (List T) :=
  if isDuplicate allTasks task = true then .ok allTasks
  else if allTasks.length < stateCount * maxTasksPerState then .ok (allTasks ++ [task])
  else .error .outOfBounds

/-- The body of the loop over the states. -/
def addState (allTasks : List T) (state : S) : Except SchedFault (List T) :=
  if (b.taskList state).length ≤ maxTasksPerState then (b.taskList state).foldlM addTask allTasks
  else .error .assertion

/-- The loop that initialises the tasks. -/
def initTasks (tasks : List T) (m : SchedMemory S T) : SchedMemory S T :=
  tasks.foldl (fun m task => { m with
    slate := b.taskInit task m.slate
    trace := m.trace ++ [.taskInit task] }) m

/-- The body of the loop that sets the deadlines. -/
def setDeadline (task : T) (m : SchedMemory S T) : SchedMemory S T :=
  { m with
    nextDispatch := fun task' =>
      if task' = task then delayedByMs (clock m.samples) (b.dispatchPeriodMs task)
      else m.nextDispatch task'
    samples := m.samples + 1
    trace := m.trace ++ [.setNextDispatch task] }

/-- The loop that sets the deadlines. -/
def setDeadlines (tasks : List T) (m : SchedMemory S T) : SchedMemory S T :=
  tasks.foldl (fun m task => setDeadline b clock task m) m

/-- `sched_init`. -/
def schedInit (m : SchedMemory S T) : Except SchedFault (SchedMemory S T) := do
  let states ← m.states.registerAll b.registrations
  let allTasks ← states.orderedStates.foldlM (addState b) m.allTasks
  let m := setDeadlines b clock allTasks (initTasks b allTasks { m with states, allTasks })
  return { m with
    slate := { m.slate with
      currentStateId := .stateInit
      manualOverrideStateId := .stateNone
      enteredCurrentStateTime := clock m.samples
      timeInCurrentStateMs := 0 }
    samples := m.samples + 1 }

/-! ## The enumeration -/

omit b clock in
theorem isDuplicate_iff {allTasks : List T} {task : T} :
    isDuplicate allTasks task = true ↔ task ∈ allTasks := by
  have hfold : ∀ found, allTasks.foldl (fun isDuplicate entry =>
      if entry = task then true else isDuplicate) found = true
        ↔ found = true ∨ task ∈ allTasks := by
    induction allTasks with
    | nil => simp
    | cons entry allTasks ih =>
      intro found
      rw [List.foldl_cons, ih, List.mem_cons]
      split
      · next heq => simp [heq]
      · next hne => rw [eq_comm, or_iff_right (a := task = entry) (fun h => hne h.symm)]
  rw [isDuplicate, hfold]
  simp

omit b clock in
/-- With room left, a task is collected. -/
theorem addTask_eq {allTasks : List T} (hroom : allTasks.length < stateCount * maxTasksPerState)
    (task : T) : addTask allTasks task = .ok (Collect.add allTasks task) := by
  unfold addTask Collect.add
  by_cases hmem : task ∈ allTasks
  · rw [if_pos (isDuplicate_iff.mpr hmem), if_pos hmem]
  · rw [if_neg (fun hdup => hmem (isDuplicate_iff.mp hdup)), if_neg hmem, if_pos hroom]

omit b clock in
/-- The loop over the tasks of a state. -/
theorem foldlM_addTask {allTasks tasks : List T}
    (hroom : allTasks.length + tasks.length ≤ stateCount * maxTasksPerState) :
    tasks.foldlM addTask allTasks = .ok (Collect.addAll allTasks tasks) := by
  induction tasks generalizing allTasks with
  | nil => rfl
  | cons task tasks ih =>
    rw [List.length_cons] at hroom
    have hone := Collect.length_add_le allTasks task
    rw [List.foldlM_cons, addTask_eq (by omega)]
    exact ih (by omega)

omit clock in
/-- The loop over the states: after each of them there is room for ten more tasks for every state
to come. -/
theorem foldlM_addState {allTasks : List T} {states : List S}
    (htasks : ∀ state ∈ states, (b.taskList state).length ≤ maxTasksPerState)
    (hroom : allTasks.length + maxTasksPerState * states.length ≤ stateCount * maxTasksPerState) :
    states.foldlM (addState b) allTasks
      = .ok (Collect.addAll allTasks (states.flatMap b.taskList)) := by
  induction states generalizing allTasks with
  | nil => rfl
  | cons state states ih =>
    have hstate := htasks state List.mem_cons_self
    rw [List.length_cons, Nat.mul_succ] at hroom
    have hlength := Collect.length_addAll_le allTasks (b.taskList state)
    rw [List.foldlM_cons, addState, if_pos hstate, foldlM_addTask (by omega), List.flatMap_cons,
      Collect.addAll_append]
    apply ih
    · intro state' hmem
      exact htasks state' (List.mem_cons_of_mem _ hmem)
    · omega

/-! ## The loops over all tasks -/

omit [DecidableEq T] clock in
/-- Every task's `task_init` runs on the slate that the tasks before it have left. -/
theorem initTasks_eq (tasks : List T) (m : SchedMemory S T) :
    initTasks b tasks m = { m with
      slate := tasks.foldl (fun slate task => b.taskInit task slate) m.slate
      trace := m.trace ++ tasks.map .taskInit } := by
  induction tasks generalizing m with
  | nil =>
    rw [List.map_nil, List.append_nil]
    rfl
  | cons task tasks ih =>
    have hrest := ih { m with
      slate := b.taskInit task m.slate
      trace := m.trace ++ [.taskInit task] }
    refine hrest.trans ?_
    rw [List.map_cons, List.append_assoc]
    rfl

theorem setDeadlines_cons (task : T) (tasks : List T) (m : SchedMemory S T) :
    setDeadlines b clock (task :: tasks) m
      = setDeadlines b clock tasks (setDeadline b clock task m) := rfl

/-- What the deadlines change, apart from the deadlines. -/
theorem setDeadlines_eq (tasks : List T) (m : SchedMemory S T) :
    ∃ nextDispatch, setDeadlines b clock tasks m = { m with
      nextDispatch
      samples := m.samples + tasks.length
      trace := m.trace ++ tasks.map .setNextDispatch } := by
  induction tasks generalizing m with
  | nil => exact ⟨m.nextDispatch, by rw [List.map_nil, List.append_nil]; rfl⟩
  | cons task tasks ih =>
    obtain ⟨nextDispatch, hrest⟩ := ih (setDeadline b clock task m)
    refine ⟨nextDispatch, (setDeadlines_cons b clock task tasks m).trans (hrest.trans ?_)⟩
    have hsamples : m.samples + 1 + tasks.length = m.samples + (task :: tasks).length := by
      rw [List.length_cons]
      omega
    rw [List.map_cons, ← hsamples]
    simp [setDeadline]

/-- A task that is not in the list keeps its deadline. -/
theorem nextDispatch_of_notMem {tasks : List T} {task : T} (h : task ∉ tasks)
    (m : SchedMemory S T) :
    (setDeadlines b clock tasks m).nextDispatch task = m.nextDispatch task := by
  induction tasks generalizing m with
  | nil => rfl
  | cons task' tasks ih =>
    rw [List.mem_cons, not_or] at h
    rw [setDeadlines_cons, ih h.2]
    exact if_neg h.1

/-- Each task in the list is given one, a period behind the reading of its turn. -/
theorem nextDispatch_setDeadlines {tasks : List T} (hnodup : tasks.Nodup) {i : Nat} {task : T}
    (h : tasks[i]? = some task) (m : SchedMemory S T) :
    (setDeadlines b clock tasks m).nextDispatch task
      = delayedByMs (clock (m.samples + i)) (b.dispatchPeriodMs task) := by
  induction tasks generalizing m i with
  | nil => cases h
  | cons task' tasks ih =>
    rw [List.nodup_cons] at hnodup
    rw [setDeadlines_cons]
    cases i with
    | zero =>
      -- its turn is over: the others leave its deadline alone
      cases h
      rw [nextDispatch_of_notMem b clock hnodup.1]
      exact if_pos rfl
    | succ i =>
      rw [ih hnodup.2 h, ← Nat.add_assoc, Nat.add_right_comm]
      rfl

/-! ## One call -/

/-- The statics at boot, behind registrations by others. -/
def atBoot (states : StateTable S) (nextDispatch : T → UInt64) (slate : Slate) (samples : Nat) :
    SchedMemory S T :=
  ⟨states, [], nextDispatch, slate, samples, []⟩

variable {b clock}

/-- **Task enumeration.** Whatever was registered before, as long as the registered states have at
most ten tasks each: a call of `sched_init` comes to its end without a fault. Then `all_tasks` has
every task of every registered state once and nothing else, and there is room for it; each was
initialised once, in its turn, and given a deadline once, behind all initialisations; the slate is
what the `task_init` of each of them, one after the other, makes of the one before, in the init
state; the deadline is a period ahead of a reading of that call; and to register an id again changes
nothing. -/
theorem sched_init_enumerates (earlier : List (StateId × S)) (nextDispatch : T → UInt64)
    (slate : Slate) (samples : Nat)
    (htasks : ∀ r, StateTable.empty.registerAll (earlier ++ b.registrations) = .ok r →
      ∀ id state, r.get id = some state → (b.taskList state).length ≤ maxTasksPerState) :
    ∃ states m, StateTable.empty.registerAll earlier = .ok states ∧
      schedInit b clock (atBoot states nextDispatch slate samples) = .ok m ∧
      m.allTasks.Nodup ∧ m.allTasks.length ≤ stateCount * maxTasksPerState ∧
      (∀ task, task ∈ m.allTasks ↔ ∃ id state, m.states.get id = some state ∧
        task ∈ b.taskList state) ∧
      m.trace = m.allTasks.map .taskInit ++ m.allTasks.map .setNextDispatch ∧
      m.slate = { m.allTasks.foldl (fun slate task => b.taskInit task slate) slate with
        currentStateId := .stateInit
        manualOverrideStateId := .stateNone
        enteredCurrentStateTime := clock (samples + m.allTasks.length)
        timeInCurrentStateMs := 0 } ∧
      (∀ i task, m.allTasks[i]? = some task →
        m.nextDispatch task = delayedByMs (clock (samples + i)) (b.dispatchPeriodMs task) ∧
        ((clock (samples + i)).toNat + (b.dispatchPeriodMs task).toNat * 1000 < 2 ^ 63 →
          (m.nextDispatch task).toNat
            = (clock (samples + i)).toNat + (b.dispatchPeriodMs task).toNat * 1000)) ∧
      ∀ id state state', m.states.get id = some state →
        m.states.register id state' = .ok m.states := by
  obtain ⟨states, ids, hearlier, hstates⟩ :=
    StateTable.registerAll_lists StateTable.empty_lists earlier
  obtain ⟨r, ids', hregister, hr⟩ := StateTable.registerAll_lists hstates b.registrations
  have hboth : StateTable.empty.registerAll (earlier ++ b.registrations) = .ok r := by
    rw [StateTable.registerAll_append, hearlier]
    exact hregister
  -- the loops over the states and their tasks
  let allTasks := Collect.addAll [] (r.orderedStates.flatMap b.taskList)
  have hstateTasks : ∀ state ∈ r.orderedStates,
      (b.taskList state).length ≤ maxTasksPerState := by
    intro state hmem
    obtain ⟨id, hget⟩ := hr.mem_orderedStates.mp hmem
    exact htasks r hboth id state hget
  have hcount := hr.length_orderedStates_le
  have hroom : ([] : List T).length + maxTasksPerState * r.orderedStates.length
      ≤ stateCount * maxTasksPerState := by
    rw [List.length_nil, Nat.zero_add, Nat.mul_comm]
    exact Nat.mul_le_mul_right _ hcount
  have henum : r.orderedStates.foldlM (addState b) [] = .ok allTasks :=
    foldlM_addState b hstateTasks hroom
  have hnodup : allTasks.Nodup := Collect.nodup_addAll List.nodup_nil
  -- the loops over all tasks
  let found : SchedMemory S T :=
    { atBoot states nextDispatch slate samples with
      states := r
      allTasks }
  have hinit := initTasks_eq b allTasks found
  obtain ⟨nextDispatch', hset⟩ := setDeadlines_eq b clock allTasks (initTasks b allTasks found)
  have hdeadline := fun (i : Nat) (task : T) (h : allTasks[i]? = some task) =>
    nextDispatch_setDeadlines b clock hnodup h (initTasks b allTasks found)
  rw [hset, hinit] at hdeadline
  have hrun : schedInit b clock (atBoot states nextDispatch slate samples) = .ok (
      let m := setDeadlines b clock allTasks (initTasks b allTasks found)
      { m with
        slate := { m.slate with
          currentStateId := .stateInit
          manualOverrideStateId := .stateNone
          enteredCurrentStateTime := clock m.samples
          timeInCurrentStateMs := 0 }
        samples := m.samples + 1 }) := by
    unfold schedInit
    show (states.registerAll b.registrations >>= _) = _
    rw [hregister]
    show (r.orderedStates.foldlM (addState b) [] >>= _) = _
    rw [henum]
    rfl
  rw [hset, hinit] at hrun
  refine ⟨states, _, hearlier, hrun, hnodup, ?_, ?_, rfl, rfl, ?_, ?_⟩
  · have hall := Collect.length_addAll_le [] (r.orderedStates.flatMap b.taskList)
    have hflat := Collect.length_flatMap_le hstateTasks
    rw [List.length_nil, Nat.zero_add] at hall
    exact Nat.le_trans hall (Nat.le_trans hflat (Nat.mul_le_mul_right _ hcount))
  · intro task
    show task ∈ allTasks ↔ _
    rw [Collect.mem_addAll, or_iff_right List.not_mem_nil, List.mem_flatMap]
    constructor
    · rintro ⟨state, hstate, htask⟩
      obtain ⟨id, hget⟩ := hr.mem_orderedStates.mp hstate
      exact ⟨id, state, hget, htask⟩
    · rintro ⟨id, state, hget, htask⟩
      exact ⟨state, hr.mem_orderedStates.mpr ⟨id, hget⟩, htask⟩
  · intro i task h
    have hdelayed : nextDispatch' task
        = delayedByMs (clock (samples + i)) (b.dispatchPeriodMs task) := hdeadline i task h
    refine ⟨hdelayed, ?_⟩
    intro hsmall
    show (nextDispatch' task).toNat = _
    rw [hdelayed, toNat_delayedByMs (b.dispatchPeriodMs task) (by omega)]
    exact Nat.min_eq_left (by omega)
  · intro id state state' hget
    exact StateTable.register_of_some hget state'

end SchedInit

/-- Four states and one that was registered before, which share the tasks 1, 2 and 3. A `task_init`
leaves its digit in the slate. -/
def sharingBuild : Build (List Nat) Nat where
  taskList := id
  dispatchPeriodMs := fun _ => 100
  taskInit := fun task slate =>
    { slate with currCommandSeqNum := slate.currCommandSeqNum * 10 + UInt32.ofNat task }
  initState := [1, 2]
  runningState := [2, 3, 2]
  burnWireState := [3]
  burnWireResetState := []
  bringupState := none

/-- Each of their tasks is found and initialised once. -/
theorem sched_init_enumerates_sharing :
    ∃ m, schedInit sharingBuild UInt64.ofNat (atBoot
        ⟨#v[none, none, none, none, some [5, 1]], [[5, 1]]⟩ (fun _ => 0) clearAndInitSlate 0)
          = .ok m ∧
      m.allTasks = [5, 1, 2, 3] ∧ m.allTasks.Nodup ∧
      m.trace = m.allTasks.map .taskInit ++ m.allTasks.map .setNextDispatch ∧
      m.slate.currCommandSeqNum = 5123 := by
  have htasks : ∀ r, StateTable.empty.registerAll
      ([(.stateBringup, [5, 1])] ++ sharingBuild.registrations) = .ok r →
      ∀ id state, r.get id = some state →
        (sharingBuild.taskList state).length ≤ maxTasksPerState := by
    intro r hr id state hget
    cases hr
    cases id with
    | stateNone => cases hget
    | _ =>
      cases hget
      decide
  obtain ⟨states, m, hearlier, hrun, hnodup, _, _, htrace, hslate, _⟩ :=
    @sched_init_enumerates _ _ _ sharingBuild UInt64.ofNat [(.stateBringup, [5, 1])]
      (fun _ => 0) clearAndInitSlate 0 htasks
  cases hearlier
  have hfound : m.allTasks = [5, 1, 2, 3] := by
    cases hrun
    rfl
  refine ⟨m, hrun, hfound, hnodup, htrace, ?_⟩
  rw [hslate, hfound]
  rfl

/-! ## The flight build -/

/-- The tasks and states of the flight. -/
def flightBuild : Build SchedState Task where
  taskList := SchedState.taskList
  dispatchPeriodMs := Task.dispatchPeriodMs
  taskInit := fun task slate =>
    (task.taskInit.run Env.still { World.atReset ⟨0, 0, 0⟩ with slate }).2.slate
  initState := Samwise.initState
  runningState := Samwise.runningState
  burnWireState := Samwise.burnWireState
  burnWireResetState := Samwise.burnWireResetState
  bringupState := none

/-- The memory is the part of the world that `sched_init` acts on. -/
structure SchedMemory.Of (m : SchedMemory SchedState Task) (w : World) : Prop where
  nextDispatch : m.nextDispatch = w.nextDispatch
  slate : m.slate = w.slate
  samples : m.samples = w.samples

/-- The loop that initialises the tasks. -/
theorem initTasks_of (env : Env) (tasks : List Task) {m : SchedMemory SchedState Task} {w : World}
    (h : m.Of w) : (initTasks flightBuild tasks m).Of ((tasks.forM Task.taskInit).run env w).2 := by
  induction tasks generalizing m w with
  | nil => exact h
  | cons task tasks ih =>
    show SchedMemory.Of _ ((tasks.forM Task.taskInit).run env (task.taskInit.run env w).2).2
    apply ih
    have hslate : flightBuild.taskInit task m.slate = (task.taskInit.run env w).2.slate := by
      rw [h.slate]
      cases task <;> rfl
    have hrest : (task.taskInit.run env w).2.nextDispatch = w.nextDispatch ∧
        (task.taskInit.run env w).2.samples = w.samples := by
      cases task <;> exact ⟨rfl, rfl⟩
    exact ⟨h.nextDispatch.trans hrest.1.symm, hslate, h.samples.trans hrest.2.symm⟩

/-- The loop that sets the deadlines. -/
theorem setDeadlines_of (env : Env) (tasks : List Task) {m : SchedMemory SchedState Task}
    {w : World} (h : m.Of w) :
    (setDeadlines flightBuild env.clock tasks m).Of ((tasks.forM fun task => do
      let next ← makeTimeoutTimeMs task.dispatchPeriodMs
      Flight.setNextDispatch task next).run env w).2 := by
  induction tasks generalizing m w with
  | nil => exact h
  | cons task tasks ih =>
    apply ih (m := setDeadline flightBuild env.clock task m)
    refine ⟨?_, h.slate, ?_⟩
    · show (fun task' => if task' = task then
        delayedByMs (env.clock m.samples) task.dispatchPeriodMs else m.nextDispatch task') = _
      rw [h.samples, h.nextDispatch]
      rfl
    · show m.samples + 1 = _
      rw [h.samples]
      rfl

/-- The registry of the flight behind the registrations. -/
def flightStates : StateTable SchedState where
  registry := #v[some Samwise.initState, some Samwise.runningState, some Samwise.burnWireState,
    some Samwise.burnWireResetState, none]
  orderedStates := [Samwise.initState, Samwise.runningState, Samwise.burnWireState,
    Samwise.burnWireResetState]

theorem registerAll_flightBuild :
    StateTable.empty.registerAll flightBuild.registrations = .ok flightStates := rfl

/-- It is the registry that the scheduler's model looks states up in. -/
theorem get_flightStates (id : StateId) : flightStates.get id = stateRegistryGet id := by
  cases id <;> rfl

/-- `sched_init` of the scheduler's model is that of its states and tasks: the same tasks, registry,
deadlines and slate. -/
theorem schedInit_flightBuild (env : Env) (w : World) :
    ∃ m, schedInit flightBuild env.clock (atBoot .empty w.nextDispatch w.slate w.samples) = .ok m ∧
      m.allTasks = Samwise.allTasks ∧ (∀ id, m.states.get id = stateRegistryGet id) ∧
      m.Of (Samwise.schedInit.run env w).2 := by
  let found : SchedMemory SchedState Task :=
    ⟨flightStates, Samwise.allTasks, w.nextDispatch, w.slate, w.samples, []⟩
  have hfound : found.Of w := ⟨rfl, rfl, rfl⟩
  have hloops := setDeadlines_of env Samwise.allTasks (initTasks_of env Samwise.allTasks hfound)
  have hinit := initTasks_eq flightBuild Samwise.allTasks found
  obtain ⟨nextDispatch, hset⟩ := setDeadlines_eq flightBuild env.clock Samwise.allTasks
    (initTasks flightBuild Samwise.allTasks found)
  have hrun : schedInit flightBuild env.clock (atBoot .empty w.nextDispatch w.slate w.samples)
      = .ok (
        let m := setDeadlines flightBuild env.clock Samwise.allTasks
          (initTasks flightBuild Samwise.allTasks found)
        { m with
          slate := { m.slate with
            currentStateId := .stateInit
            manualOverrideStateId := .stateNone
            enteredCurrentStateTime := env.clock m.samples
            timeInCurrentStateMs := 0 }
          samples := m.samples + 1 }) := by
    unfold schedInit
    show (StateTable.empty.registerAll flightBuild.registrations >>= _) = _
    rw [registerAll_flightBuild]
    rfl
  rw [hset, hinit] at hrun hloops
  refine ⟨_, hrun, rfl, get_flightStates, hloops.nextDispatch, ?_, ?_⟩
  · have hslate : Samwise.allTasks.foldl (fun slate task => flightBuild.taskInit task slate) w.slate
        = _ := hloops.slate
    have hsamples : w.samples + Samwise.allTasks.length = _ := hloops.samples
    show { Samwise.allTasks.foldl (fun slate task => flightBuild.taskInit task slate) w.slate with
      currentStateId := .stateInit
      manualOverrideStateId := .stateNone
      enteredCurrentStateTime := env.clock (w.samples + Samwise.allTasks.length)
      timeInCurrentStateMs := 0 : Slate } = _
    rw [hslate, hsamples]
    rfl
  · exact congrArg (· + 1) hloops.samples

end TaskEnumeration

end Samwise
