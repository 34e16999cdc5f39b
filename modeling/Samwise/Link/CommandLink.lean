import Mathlib.Data.List.Sort
import Samwise.Link.MessageIds
import Samwise.Link.PayloadCommands
import Samwise.Link.Reception

/-!
# Samwise — the command link

The ground station, the air and the running satellite together: packets are created, anything at
all comes in over the radio, the satellite's program and its other interrupts go on in any order,
it reboots at any point, and the ground station hears beacons, shuts down and crashes. What goes on
on the air is limited by one thing, that nobody else makes a tag (`Unforged`).

What is executed was sent, once and in the order of sending (`CommandLink.Sound`).
-/

namespace Samwise

open Run Ground

/-! ## Commands -/

/-- What the tag of a packet covers, as the satellite reads it: header, payload and stamp. -/
def Packet.command (p : Packet) : List UInt8 × List UInt8 × (UInt32 × UInt32) :=
  (p.header, p.payload, p.stamp)

/-- The bytes under the tag determine the command. -/
theorem command_eq_of_hmacMessage {p q : Packet} (hp : p.len.toNat ≤ packetDataSize)
    (hq : q.len.toNat ≤ packetDataSize) (h : hmacMessage p = hmacMessage q) :
    p.command = q.command := by
  rw [hmacMessage_eq p hp, hmacMessage_eq q hq, List.append_assoc, List.append_assoc] at h
  obtain ⟨hheader, hrest⟩ := List.append_inj h rfl
  -- the header has the length of the payload
  have hlen : p.len = q.len := by
    simp only [Packet.header, List.cons.injEq] at hheader
    exact hheader.2.2.2.2.1
  have hlengths : p.payload.length = q.payload.length := by
    rw [p.length_payload hp, q.length_payload hq, hlen]
  obtain ⟨hpayload, hcounters⟩ := List.append_inj hrest hlengths
  obtain ⟨hboot, hmsg⟩ := List.append_inj hcounters (by simp)
  have hstamp : p.stamp = q.stamp := by
    have hboot' : p.bootCount = q.bootCount := by
      rw [← LittleEndian.ofLe32_le32 p.bootCount, hboot, LittleEndian.ofLe32_le32]
    have hmsg' : p.msgId = q.msgId := by
      rw [← LittleEndian.ofLe32_le32 p.msgId, hmsg, LittleEndian.ofLe32_le32]
    rw [Packet.stamp, Packet.stamp, hboot', hmsg']
  rw [Packet.command, Packet.command, hheader, hpayload, hstamp]

/-- The packet that `rx_done` adds to `rx_queue` for a frame: it is one, and for this node. -/
def addressedPacket (radioNode : UInt8) (fifo : List UInt8) : Option Packet :=
  let (parsed, p) := parsePacket (rxBuffer fifo) fifo.length Packet.zero
  if parsed = false then none
  else if p.dst = rhBroadcastAddress ∨ p.dst = radioNode then some p
  else none

/-- `rx_done` adds this one. -/
theorem rxDone_addressedPacket (radioNode : UInt8) (fifo : List UInt8)
    (rxQueue : BoundedQueue Packet rxQueueSize) :
    rxDone radioNode fifo rxQueue = match addressedPacket radioNode fifo with
      | some p => (rxQueue.tryAdd p).2
      | none => rxQueue := by
  unfold rxDone addressedPacket
  dsimp only
  split
  · rfl
  · split
    · rfl
    · rfl

theorem addressedPacket_len_le {radioNode : UInt8} {fifo : List UInt8} {p : Packet}
    (h : addressedPacket radioNode fifo = some p) : p.len.toNat ≤ packetDataSize := by
  unfold addressedPacket at h
  cases hparse : parsePacket (rxBuffer fifo) fifo.length Packet.zero with
  | mk parsed q =>
    cases parsed with
    | false => simp [hparse] at h
    | true =>
      simp only [hparse] at h
      split at h
      · cases h
      · split at h
        · obtain rfl := Option.some.inj h
          exact parsePacket_len_le hparse
        · cases h

/-! ## The system -/

/-- The ground station's manager and the packets it created, the satellite, and the packets it
executed. -/
structure CommandLink where
  sm : StateManager
  created : List (List UInt8)
  running : Running
  executed : List Packet

namespace CommandLink

/-- The satellite's `rx_queue`, last seen id and reboot counter. -/
def reception (s : CommandLink) : Reception := s.running.world.reception

/-- The ground station, with what the satellite checks packets by. -/
def station (s : CommandLink) : Station :=
  ⟨s.sm, s.created, ⟨s.reception.rebootCounter, s.reception.lastSeenMsgId⟩⟩

/-- The messages that were tagged. -/
def signed (s : CommandLink) : List (List UInt8) :=
  s.created.map fun packet => hmacMessage (received packet).2

/-- The commands that were sent. -/
def commands (s : CommandLink) : List (List UInt8 × List UInt8 × (UInt32 × UInt32)) :=
  s.created.map fun packet => (received packet).2.command

end CommandLink

/-- `main` behind its waiting. -/
def mainRest : Flight Unit := do
  let data ← Flight.update .init
  let _ ← Flight.update .incrementRebootCounter
  mainFinish data

/-- The same up to `sched_init`, with the reboot counter that `main` assigns behind it. -/
def bootRest : Flight Unit := do
  let data ← Flight.update .init
  let _ ← Flight.update .incrementRebootCounter
  burnWireInit
  Flight.modifySlate fun s => { s with rebootCounter := data.rebootCounter }

/-- Where `sched_init` starts from after a reset with the record `d` in flash. -/
def bootWorld (env : Env) (d : PersistentData) : World :=
  (bootRest.run env (mainStart.run env (World.atReset d)).2).2

/-- `sched_init` does not look at the reboot counter. -/
theorem schedInit_rebootCounter (counter : UInt32) (env : Env) (w : World) :
    (schedInit.run env { w with slate := { w.slate with rebootCounter := counter } }).2
      = { (schedInit.run env w).2 with
          slate := { (schedInit.run env w).2.slate with rebootCounter := counter } } := by
  simp [schedInit, schedInitRest, allTasks, runningState, burnWireState, Task.taskInit,
    makeTimeoutTimeMs, getAbsoluteTime]

theorem schedInit_bootRest (env : Env) (w : World) :
    (schedInit.run env (bootRest.run env w).2).2 = (mainRest.run env w).2 := by
  unfold bootRest mainRest mainFinish
  simp only [Flight.run_bind, Flight.run_modifySlate, Flight.run_update]
  rw [schedInit_rebootCounter]

theorem mainInit_eq : mainInit = mainStart >>= fun _ => mainRest := rfl

/-- From there on, the start of the machine is `main` up to its loop. -/
theorem schedInit_bootWorld (env : Env) (d : PersistentData) :
    (schedInit.run env (bootWorld env d)).2 = (mainInit.run env (World.atReset d)).2 := by
  rw [mainInit_eq]
  exact schedInit_bootRest env _

theorem bootRest_reception (env : Env) {w : World} {counter : UInt32}
    (h : w.reception = ⟨.empty, 0, counter⟩) :
    (bootRest.run env w).2.reception = ⟨.empty, 0, (initPersistentData w.persistent).rebootCounter⟩ := by
  show Reception.mk w.reception.rxQueue w.reception.lastSeenMsgId _ = _
  rw [h]
  rfl

/-- A boot starts with an empty queue and no packet seen. -/
theorem bootWorld_reception (env : Env) (d : PersistentData) :
    ∃ counter, (bootWorld env d).reception = ⟨.empty, 0, counter⟩ :=
  ⟨_, bootRest_reception env (mainStart_sameReception env (World.atReset d))⟩

/-- An event on the ground: all of `StationEvent` but what the satellite does. -/
def StationEvent.OnGround : StationEvent → Prop
  | .send _ _ _ _ _ _ delivered => delivered = false
  | .reboot _ => False
  | _ => True

instance (e : StationEvent) : Decidable e.OnGround := by
  unfold StationEvent.OnGround
  split <;> infer_instance

/-- What happens next: something on the ground, a frame comes in, the satellite's program goes on or
another of its interrupts falls, or it reboots with some record in flash. -/
inductive LinkEvent where
  | ground (e : StationEvent)
  | frame (fifo : List UInt8)
  | flight (e : RunEvent)
  | reboot (env : Env) (d : PersistentData)

/-- The events of the satellite that are no reception. -/
def RunEvent.Inside : RunEvent → Prop
  | .rxDone _ => False
  | _ => True

instance (e : RunEvent) : Decidable e.Inside := by
  unfold RunEvent.Inside
  split <;> infer_instance

section CommandLink

variable (hmac : Hmac) (key : PacketHmacPsk) (radioNode : UInt8)

/-- One step. A frame that is no packet for this node changes nothing here. -/
def linkStep (s : CommandLink) : LinkEvent → Option CommandLink
  | .ground e =>
    if e.OnGround then
      (stationStep hmac key s.station e).map fun t => { s with sm := t.sm, created := t.created }
    else none
  | .frame fifo =>
    match addressedPacket radioNode fifo with
    | some p => (runStep hmac (some key) s.running (.rxDone p)).map fun r => { s with running := r }
    | none => if s.running.irqs = true then some s else none
  | .flight e =>
    if e.Inside then
      (runStep hmac (some key) s.running e).map fun r => { s with
        running := r
        executed := s.executed ++ (executedAt hmac (some key) s.running e).toList }
    else none
  | .reboot env d => some { s with running := .start (bootWorld env d) }

/-- Both sides start: nothing was sent, nothing was received. -/
structure CommandLink.Start (s : CommandLink) : Prop where
  loaded : s.sm = .load s.sm.file
  file : 0 ≤ s.sm.fileMsgId
  created : s.created = []
  running : ∃ w, s.running = .start w
  queued : s.reception.rxQueue.elems = []
  seen : s.reception.lastSeenMsgId = 0
  executed : s.executed = []

/-- Nobody but the ground station tags a message: where a frame carries a right tag, what it covers
was tagged there. -/
def Unforged (s : CommandLink) : LinkEvent → Prop
  | .frame fifo => ∀ p, addressedPacket radioNode fifo = some p →
      hmac key (hmacMessage p) = p.hmac → hmacMessage p ∈ s.signed
  | _ => True

instance (s : CommandLink) (e : LinkEvent) : Decidable (Unforged hmac key radioNode s e) :=
  match e with
  | .frame fifo => decidable_of_iff (∀ p ∈ addressedPacket radioNode fifo,
      hmac key (hmacMessage p) = p.hmac → hmacMessage p ∈ s.signed) Iff.rfl
  | .ground _ | .flight _ | .reboot _ _ => isTrue trivial

/-- The reboot counter is what it is for. -/
def BootsForward (s : CommandLink) : LinkEvent → Prop
  | .reboot env d => s.reception.rebootCounter < (bootWorld env d).reception.rebootCounter
  | _ => True

instance (s : CommandLink) (e : LinkEvent) : Decidable (BootsForward s e) := by
  unfold BootsForward
  split <;> infer_instance

/-- The ground station ends its processes with their ids saved. -/
def SavesIds (s : CommandLink) : LinkEvent → Prop
  | .ground e => endsSaved s.station e
  | _ => True

instance (s : Station) : Decidable s.Saved := by
  unfold Station.Saved
  infer_instance

instance (s : CommandLink) (e : LinkEvent) : Decidable (SavesIds s e) := by
  unfold SavesIds endsSaved
  split
  · split <;> infer_instance
  · infer_instance

/-! ## One step of reception -/

variable {hmac key radioNode}

/-- The stamp of the last packet accepted since the boot. -/
def Reception.now (r : Reception) : UInt32 × UInt32 := (r.rebootCounter, r.lastSeenMsgId)

/-- What `Reception.take` does: there is nothing, or the first packet is accepted, or it is not. -/
theorem Reception.take_cases (hmac : Hmac) (key : PacketHmacPsk) (r : Reception) :
    (r.rxQueue.elems = [] ∧ r.take hmac (some key) = (none, r)) ∨
    ∃ p rest, r.rxQueue.elems = p :: rest.elems ∧
      ((Accepts hmac key r.lastSeenMsgId r.rebootCounter p ∧
          r.take hmac (some key) = (some p, ⟨rest, p.msgId, r.rebootCounter⟩)) ∨
        (¬Accepts hmac key r.lastSeenMsgId r.rebootCounter p ∧
          r.take hmac (some key) = (none, ⟨rest, r.lastSeenMsgId, r.rebootCounter⟩))) := by
  cases hremove : r.rxQueue.tryRemove with
  | mk removed rest =>
    have helems : r.rxQueue.elems = removed.toList ++ rest.elems := by
      have h := r.rxQueue.elems_of_tryRemove
      rw [hremove] at h
      exact h
    cases removed with
    | none =>
      obtain rfl := BoundedQueue.tryRemove_of_none hremove
      refine .inl ⟨?_, by rw [Reception.take, hremove]⟩
      unfold BoundedQueue.tryRemove at hremove
      split at hremove
      · assumption
      · cases hremove
    | some p =>
      refine .inr ⟨p, rest, helems, ?_⟩
      by_cases haccepts : Accepts hmac key r.lastSeenMsgId r.rebootCounter p
      · refine .inl ⟨haccepts, ?_⟩
        simp [Reception.take, hremove, isPacketAuthenticated_some, haccepts]
      · refine .inr ⟨haccepts, ?_⟩
        simp [Reception.take, hremove, isPacketAuthenticated_some, haccepts]

/-- With the commands that were sent: what is known of the packets that wait and of those that were
executed. -/
structure Reception.Sound (hmac : Hmac) (key : PacketHmacPsk)
    (commands : List (List UInt8 × List UInt8 × (UInt32 × UInt32))) (executed : List Packet)
    (r : Reception) : Prop where
  /-- What waits and carries a right tag was sent. -/
  queued : ∀ p ∈ r.rxQueue.elems, hmac key (hmacMessage p) = p.hmac → p.command ∈ commands
  sent : ∀ p ∈ executed, p.command ∈ commands
  ordered : executed.Pairwise fun p q => Fresher p.stamp q.stamp
  /-- Nothing that was executed is ahead of the last packet accepted. -/
  behind : ∀ p ∈ executed, p.stamp = r.now ∨ Fresher p.stamp r.now
  /-- The last packet accepted since the boot was executed. -/
  seen : r.lastSeenMsgId = 0 ∨ ∃ p ∈ executed, p.stamp = r.now

namespace Reception.Sound

variable {commands : List (List UInt8 × List UInt8 × (UInt32 × UInt32))} {executed : List Packet}
  {r : Reception}

/-- Another queue, of packets that are no worse. -/
theorem requeue (h : r.Sound hmac key commands executed) {rxQueue : BoundedQueue Packet rxQueueSize}
    (hqueued : ∀ p ∈ rxQueue.elems, hmac key (hmacMessage p) = p.hmac → p.command ∈ commands) :
    Reception.Sound hmac key commands executed { r with rxQueue } :=
  ⟨hqueued, h.sent, h.ordered, h.behind, h.seen⟩

/-- More was sent. -/
theorem mono (h : r.Sound hmac key commands executed)
    {commands' : List (List UInt8 × List UInt8 × (UInt32 × UInt32))} (hsub : commands ⊆ commands') :
    r.Sound hmac key commands' executed :=
  ⟨fun p hp htag => hsub (h.queued p hp htag), fun p hp => hsub (h.sent p hp), h.ordered, h.behind,
    h.seen⟩

/-- The satellite boots, with nothing received and a larger counter. -/
theorem reboot (h : r.Sound hmac key commands executed) {counter : UInt32}
    (hlt : r.rebootCounter < counter) :
    Reception.Sound hmac key commands executed ⟨.empty, 0, counter⟩ where
  queued := fun p hp => absurd hp List.not_mem_nil
  sent := h.sent
  ordered := h.ordered
  behind := by
    intro p hp
    right
    have hnow : Fresher r.now (counter, 0) := .inl hlt
    rcases h.behind p hp with heq | hbehind
    · rw [heq]
      exact hnow
    · exact hbehind.trans hnow
  seen := .inl rfl

/-- A packet of the queue that is accepted: it is fresher than all before it. -/
theorem accept (h : r.Sound hmac key commands executed) {p : Packet}
    {rest : BoundedQueue Packet rxQueueSize} (hqueue : r.rxQueue.elems = p :: rest.elems)
    (haccepts : Accepts hmac key r.lastSeenMsgId r.rebootCounter p) :
    Reception.Sound hmac key commands (executed ++ [p]) ⟨rest, p.msgId, r.rebootCounter⟩ := by
  obtain ⟨hboot, hid, htag⟩ := haccepts
  have hstamp : p.stamp = (r.rebootCounter, p.msgId) := by rw [Packet.stamp, hboot]
  have hnow : Fresher r.now p.stamp := by
    rw [hstamp]
    exact .inr ⟨rfl, hid⟩
  have hfresh : ∀ q ∈ executed, Fresher q.stamp p.stamp := by
    intro q hq
    rcases h.behind q hq with heq | hbehind
    · rw [heq]
      exact hnow
    · exact hbehind.trans hnow
  refine ⟨fun q hq => ?_, fun q hq => ?_, ?_, fun q hq => ?_, .inr ⟨p, by simp, hstamp⟩⟩
  · exact h.queued q (by rw [hqueue]; exact List.mem_cons_of_mem _ hq)
  · rcases List.mem_append.mp hq with hq | hq
    · exact h.sent q hq
    · obtain rfl := List.mem_singleton.mp hq
      exact h.queued q (by rw [hqueue]; exact List.mem_cons_self) htag
  · refine List.pairwise_append.mpr ⟨h.ordered, List.pairwise_singleton _ _, fun a ha b hb => ?_⟩
    rw [List.mem_singleton.mp hb]
    exact hfresh a ha
  · rcases List.mem_append.mp hq with hq | hq
    · right
      show Fresher q.stamp (r.rebootCounter, p.msgId)
      rw [← hstamp]
      exact hfresh q hq
    · rw [List.mem_singleton.mp hq]
      exact .inl hstamp

/-- One step of the satellite. What is received, if anything, was sent where it carries a right
tag. -/
theorem step (h : r.Sound hmac key commands executed) {s : Running} (hr : s.world.reception = r)
    {e : RunEvent} {out : Option Packet} {r' : Reception}
    (hstep : ReceptionStep hmac (some key) s e out r')
    (hreceived : ∀ p, e = .rxDone p → hmac key (hmacMessage p) = p.hmac → p.command ∈ commands) :
    r'.Sound hmac key commands (executed ++ out.toList) := by
  subst hr
  cases hstep with
  | same e =>
    rw [Option.toList_none, List.append_nil]
    exact h
  | init hphase =>
    rw [Option.toList_none, List.append_nil]
    exact h.requeue fun p hp => absurd hp List.not_mem_nil
  | received hirqs =>
    next packet =>
    rw [Option.toList_none, List.append_nil]
    refine h.requeue fun p hp htag => ?_
    by_cases hroom : s.world.reception.rxQueue.elems.length < rxQueueSize
    · rw [(BoundedQueue.tryAdd_of_lt packet hroom).2] at hp
      rcases List.mem_append.mp hp with hp | hp
      · exact h.queued p hp htag
      · obtain rfl := List.mem_singleton.mp hp
        exact hreceived p rfl htag
    · rw [BoundedQueue.tryAdd_of_full packet hroom] at hp
      exact h.queued p hp htag
  | taken =>
    rcases Reception.take_cases hmac key s.world.reception with
      ⟨_, htake⟩ | ⟨p, rest, hqueue, ⟨haccepts, htake⟩ | ⟨_, htake⟩⟩
    · rw [htake, Option.toList_none, List.append_nil]
      exact h
    · rw [htake]
      exact h.accept hqueue haccepts
    · rw [htake, Option.toList_none, List.append_nil]
      refine h.requeue fun q hq => h.queued q ?_
      rw [hqueue]
      exact List.mem_cons_of_mem _ hq

end Reception.Sound

/-! ## What holds in every state -/

/-- What is created is a packet, as the satellite reads it. -/
theorem received_created {env : SaveEnv} {sm : StateManager} {dst src flags seq : Int}
    {data packet : List UInt8}
    (h : (createPacket hmac key env sm dst src flags seq data).1 = .ok packet) :
    (received packet).1 = true := by
  obtain ⟨hlen, d, s, f, q, bootCount, msgId, -, -, hframe⟩ := createPacket_signed Packet.zero.data h
  have hparse := parsePacket_signedPacket hmac key d s f q bootCount msgId Packet.zero [] hlen
  simp only [List.append_nil] at hparse
  unfold received
  rw [hframe, radioSend_eq (four_le_length_frame _), hparse]

/-- Where `main` can be, what was created, and what is known of reception. -/
structure CommandLink.Sound (hmac : Hmac) (key : PacketHmacPsk) (s : CommandLink) : Prop where
  underway : s.running.Underway
  packets : ∀ packet ∈ s.created, (received packet).1 = true
  reception : s.reception.Sound hmac key s.commands s.executed

theorem CommandLink.Start.sound {s : CommandLink} (h : s.Start) : s.Sound hmac key := by
  obtain ⟨w, hw⟩ := h.running
  refine ⟨?_, ?_, ?_, ?_, ?_, ?_, .inl h.seen⟩
  · rw [hw]
    exact underway_start w
  · rw [h.created]
    exact fun packet hpacket => absurd hpacket List.not_mem_nil
  · rw [h.queued]
    exact fun p hp => absurd hp List.not_mem_nil
  · rw [h.executed]
    exact fun p hp => absurd hp List.not_mem_nil
  · rw [h.executed]
    exact .nil
  · rw [h.executed]
    exact fun p hp => absurd hp List.not_mem_nil

/-- What carries a right tag was sent, where nobody else makes tags. -/
theorem CommandLink.Sound.command_mem {s : CommandLink} (h : s.Sound hmac key) {fifo : List UInt8}
    (hunforged : Unforged hmac key radioNode s (.frame fifo)) {p : Packet}
    (hp : addressedPacket radioNode fifo = some p) (htag : hmac key (hmacMessage p) = p.hmac) :
    p.command ∈ s.commands := by
  obtain ⟨packet, hpacket, hmessage⟩ := List.mem_map.mp (hunforged p hp htag)
  have hparse : parsePacket (radioSend packet) (radioSend packet).length Packet.zero
      = (true, (received packet).2) := Prod.ext (h.packets packet hpacket) rfl
  refine List.mem_map.mpr ⟨packet, hpacket, ?_⟩
  exact command_eq_of_hmacMessage (parsePacket_len_le hparse) (addressedPacket_len_le hp) hmessage

/-- An event on the ground: packets are added, and they are packets. -/
theorem ground_created {s : CommandLink} {e : StationEvent} {t : Station}
    (h : stationStep hmac key s.station e = some t) :
    t.created = s.created ∨
      ∃ packet, t.created = s.created ++ [packet] ∧ (received packet).1 = true := by
  cases e with
  | send env dst src flags seq data delivered =>
    unfold stationStep at h
    cases hcreate : (createPacket hmac key env s.station.sm dst src flags seq data).1 with
    | error err =>
      simp only [hcreate] at h
      obtain rfl := Option.some.inj h
      exact .inl rfl
    | ok packet =>
      simp only [hcreate] at h
      obtain rfl := Option.some.inj h
      exact .inr ⟨packet, rfl, received_created hcreate⟩
  | beacon env bootCount =>
    obtain rfl := Option.some.inj h
    exact .inl rfl
  | shutdown env =>
    obtain rfl := Option.some.inj h
    exact .inl rfl
  | crash =>
    obtain rfl := Option.some.inj h
    exact .inl rfl
  | crashInCreate env =>
    obtain rfl := Option.some.inj h
    exact .inl rfl
  | reboot bootCount =>
    obtain rfl := Option.some.inj h
    exact .inl rfl

/-- One step of the satellite's program, or of its interrupts. -/
theorem CommandLink.Sound.flight {s : CommandLink} (h : s.Sound hmac key) {e : RunEvent}
    {r : Running} (hstep : runStep hmac (some key) s.running e = some r)
    (hreceived : ∀ p, e = .rxDone p → hmac key (hmacMessage p) = p.hmac → p.command ∈ s.commands) :
    CommandLink.Sound hmac key { s with
      running := r
      executed := s.executed ++ (executedAt hmac (some key) s.running e).toList } where
  underway := runStep_underway h.underway hstep
  packets := h.packets
  reception := h.reception.step rfl (runStep_reception h.underway hstep) hreceived

/-- A boot, from whatever the world is then. -/
theorem CommandLink.Sound.restart {s : CommandLink} (h : s.Sound hmac key) {w : World}
    {counter : UInt32} (hw : w.reception = ⟨.empty, 0, counter⟩)
    (hlt : s.reception.rebootCounter < counter) :
    CommandLink.Sound hmac key { s with running := .start w } := by
  refine ⟨underway_start w, h.packets, ?_⟩
  show w.reception.Sound hmac key s.commands s.executed
  rw [hw]
  exact h.reception.reboot hlt

/-- **A step of the link.** -/
theorem linkStep_sound {s s' : CommandLink} {e : LinkEvent}
    (hok : Unforged hmac key radioNode s e ∧ BootsForward s e) (h : s.Sound hmac key)
    (hstep : linkStep hmac key radioNode s e = some s') : s'.Sound hmac key := by
  cases e with
  | ground e =>
    rw [linkStep] at hstep
    split at hstep
    · obtain ⟨t, ht, rfl⟩ := Option.map_eq_some_iff.mp hstep
      rcases ground_created ht with hsame | ⟨packet, hadded, hpacket⟩
      · refine ⟨h.underway, ?_, h.reception.mono ?_⟩
        · show ∀ packet ∈ t.created, (received packet).1 = true
          rw [hsame]
          exact h.packets
        · show s.commands ⊆ t.created.map _
          rw [hsame]
          exact fun _ hc => hc
      · refine ⟨h.underway, ?_, h.reception.mono ?_⟩
        · show ∀ packet ∈ t.created, (received packet).1 = true
          rw [hadded]
          intro q hq
          rcases List.mem_append.mp hq with hq | hq
          · exact h.packets q hq
          · rw [List.mem_singleton.mp hq]
            exact hpacket
        · show s.commands ⊆ t.created.map _
          rw [hadded, List.map_append]
          exact List.subset_append_left _ _
    · cases hstep
  | frame fifo =>
    rw [linkStep] at hstep
    split at hstep
    · next p hp =>
      obtain ⟨r, hr, rfl⟩ := Option.map_eq_some_iff.mp hstep
      have hsound := h.flight hr fun q hq htag => by
        obtain rfl := RunEvent.rxDone.inj hq
        exact h.command_mem hok.1 hp htag
      -- a reception executes nothing
      have hnone : s.executed ++ (executedAt hmac (some key) s.running (.rxDone p)).toList
          = s.executed := List.append_nil _
      rw [hnone] at hsound
      exact hsound
    · split at hstep
      · obtain rfl := Option.some.inj hstep
        exact h
      · cases hstep
  | flight e =>
    rw [linkStep] at hstep
    split at hstep
    · next hinside =>
      obtain ⟨r, hr, rfl⟩ := Option.map_eq_some_iff.mp hstep
      refine h.flight hr fun q hq _ => ?_
      subst hq
      exact absurd hinside (fun hfalse => hfalse)
    · cases hstep
  | reboot env d =>
    obtain rfl := Option.some.inj hstep
    obtain ⟨counter, hboot⟩ := bootWorld_reception env d
    have hforward : s.reception.rebootCounter < (bootWorld env d).reception.rebootCounter := hok.2
    rw [hboot] at hforward
    exact h.restart hboot hforward

/-! ## The order of sending -/

/-- One command has a smaller id than another. -/
def EarlierId (c d : List UInt8 × List UInt8 × (UInt32 × UInt32)) : Prop := c.2.2.2 < d.2.2.2

instance : Std.Irrefl EarlierId := ⟨fun _ h => UInt32.lt_irrefl _ h⟩

instance : Std.Antisymm EarlierId := ⟨fun _ _ h h' => absurd (UInt32.lt_trans h h') (UInt32.lt_irrefl _)⟩

/-- Commands are sent with increasing ids. -/
theorem commands_pairwise {s : CommandLink} (h : s.station.Fresh) : s.commands.Pairwise EarlierId :=
  List.pairwise_map.mpr h.increasing

/-- What was executed in one boot has increasing ids. -/
theorem executed_pairwise {executed : List Packet}
    (h : executed.Pairwise fun p q => Fresher p.stamp q.stamp) (bootCount : UInt32) :
    ((executed.filter fun p => p.bootCount = bootCount).map Packet.command).Pairwise EarlierId := by
  rw [List.pairwise_map]
  refine (h.filter _).imp_of_mem fun {p q} hp hq hfresher => ?_
  have hpboot : p.bootCount = bootCount := of_decide_eq_true (List.mem_filter.mp hp).2
  have hqboot : q.bootCount = bootCount := of_decide_eq_true (List.mem_filter.mp hq).2
  rcases hfresher with hboot | ⟨_, hid⟩
  · -- they carry one boot count
    have hlt : p.bootCount < q.bootCount := hboot
    rw [hpboot, hqboot] at hlt
    exact absurd hlt (UInt32.lt_irrefl _)
  · exact hid

/-- What the satellite has seen is in the state file, or among what was created. -/
theorem CommandLink.Sound.station_fresh {s : CommandLink} (h : s.Sound hmac key)
    {sat : ReplayState} (hground : Station.Fresh ⟨s.sm, s.created, sat⟩) : s.station.Fresh where
  coherent := hground.coherent
  created_le := hground.created_le
  increasing := hground.increasing
  seen := by
    rcases h.reception.seen with hzero | ⟨p, hp, hstamp⟩
    · left
      show (s.reception.lastSeenMsgId.toNat : Int) ≤ s.sm.fileMsgId
      rw [hzero]
      exact hground.coherent.nonneg
    · right
      obtain ⟨packet, hpacket, hcommand⟩ := List.mem_map.mp (h.reception.sent p hp)
      have hcarried : carriedStamp packet = s.reception.now :=
        (congrArg (fun command => command.2.2) hcommand).trans hstamp
      exact ⟨packet, hpacket, congrArg Prod.snd hcarried⟩

/-- Where the ground station's processes end with their ids saved, its ids stay ahead of the
satellite's. -/
theorem linkStep_fresh {s s' : CommandLink} {e : LinkEvent} (hsaves : SavesIds s e)
    (hsound : s'.Sound hmac key) (h : s.station.Fresh)
    (hstep : linkStep hmac key radioNode s e = some s') : s'.station.Fresh := by
  cases e with
  | ground e =>
    rw [linkStep] at hstep
    split at hstep
    · obtain ⟨t, ht, rfl⟩ := Option.map_eq_some_iff.mp hstep
      exact hsound.station_fresh (stationStep_fresh hmac key s.station e t hsaves h ht)
    · cases hstep
  | frame fifo =>
    rw [linkStep] at hstep
    split at hstep
    · obtain ⟨r, -, rfl⟩ := Option.map_eq_some_iff.mp hstep
      exact hsound.station_fresh h
    · split at hstep
      · obtain rfl := Option.some.inj hstep
        exact h
      · cases hstep
  | flight e =>
    rw [linkStep] at hstep
    split at hstep
    · obtain ⟨r, -, rfl⟩ := Option.map_eq_some_iff.mp hstep
      exact hsound.station_fresh h
    · cases hstep
  | reboot env d =>
    obtain rfl := Option.some.inj hstep
    exact hsound.station_fresh h

theorem CommandLink.Start.fresh {s : CommandLink} (h : s.Start) : s.station.Fresh := by
  refine Station.Start.fresh ⟨h.loaded, h.created, ?_⟩
  show (s.reception.lastSeenMsgId.toNat : Int) ≤ s.sm.fileMsgId
  rw [h.seen]
  exact h.file

/-- Both hold over every run whose processes end with their ids saved. -/
theorem run_sound_fresh {s t : CommandLink} {es : List LinkEvent} (hstart : s.Start)
    (hair : AllSteps (linkStep hmac key radioNode) (Unforged hmac key radioNode) s es)
    (hboots : AllSteps (linkStep hmac key radioNode) BootsForward s es)
    (hsaves : AllSteps (linkStep hmac key radioNode) SavesIds s es)
    (hrun : run (linkStep hmac key radioNode) s es = some t) :
    t.Sound hmac key ∧ t.station.Fresh :=
  invariant (linkStep hmac key radioNode) (I := fun s => s.Sound hmac key ∧ s.station.Fresh)
    (fun _ _ _ hok h hstep =>
      have hsound := linkStep_sound hok.1 h.1 hstep
      ⟨hsound, linkStep_fresh hok.2 hsound h.2 hstep⟩)
    (AllSteps.and _ (AllSteps.and _ hair hboots) hsaves) hrun ⟨hstart.sound, hstart.fresh⟩

variable (hmac key radioNode)

/-- **What is executed was sent, once and in order.** Over every run in which nobody else makes
tags and every boot has a larger counter: each packet that the satellite executes carries a command
that the ground station sent, no stamp is executed twice, and if the ground station ends its
processes with their ids saved, then within a boot the commands are executed in the order of their
sending. -/
theorem executed_commands_sent {s t : CommandLink} {es : List LinkEvent} (hstart : s.Start)
    (hair : AllSteps (linkStep hmac key radioNode) (Unforged hmac key radioNode) s es)
    (hboots : AllSteps (linkStep hmac key radioNode) BootsForward s es)
    (hrun : run (linkStep hmac key radioNode) s es = some t) :
    (∀ p ∈ t.executed, p.command ∈ t.commands)
      ∧ (t.executed.map Packet.stamp).Nodup
      ∧ (AllSteps (linkStep hmac key radioNode) SavesIds s es → ∀ bootCount,
          ((t.executed.filter fun p => p.bootCount = bootCount).map Packet.command).Sublist
            t.commands) := by
  have hok := AllSteps.and _ hair hboots
  have hsound : t.Sound hmac key :=
    invariant (linkStep hmac key radioNode) (I := CommandLink.Sound hmac key)
      (fun s e s' hok h hstep => linkStep_sound hok h hstep) hok hrun hstart.sound
  refine ⟨hsound.reception.sent, ?_, fun hsaves bootCount => ?_⟩
  · rw [List.Nodup, List.pairwise_map]
    exact hsound.reception.ordered.imp Fresher.ne
  · obtain ⟨-, hfresh⟩ := run_sound_fresh hstart hair hboots hsaves hrun
    -- two lists with increasing ids, the one within the other
    have hexecuted := executed_pairwise hsound.reception.ordered bootCount
    refine List.sublist_of_subperm_of_pairwise (List.subperm_of_subset hexecuted.nodup ?_) hexecuted
      (commands_pairwise hfresh)
    intro command hcommand
    obtain ⟨p, hp, rfl⟩ := List.mem_map.mp hcommand
    exact hsound.reception.sent p (List.mem_filter.mp hp).1

/-- Both sides start, on the satellite's first boot. -/
def linkAtStart : CommandLink := ⟨.load none, [], .start (.atReset ⟨initMarker, 0, 0⟩), []⟩

/-- The packet of a ping. -/
def pingPacket : List UInt8 :=
  match (createPacket zeroHmac (Vector.replicate 32 0) ⟨1000, true⟩ (.load none) 255 255 0 0 [0]).1 with
  | .ok packet => packet
  | .error _ => []

def pingSent : LinkEvent := .ground (.send ⟨1000, true⟩ 255 255 0 0 [0] false)

/-- The satellite starts, up to a pass in its running state. -/
def startingUp : List LinkEvent := List.replicate 14 (.flight (.main (.standing 0) 0))

/-- A pass in which the command task is due. -/
def commandPass : List LinkEvent :=
  List.replicate 7 (.flight (.main (.standing 0) 0)) ++
    [.flight (.main (.standing 1000000) 0), .flight (.main (.standing 0) 0)]

theorem linkAtStart_start : linkAtStart.Start :=
  ⟨rfl, le_rfl, rfl, ⟨_, rfl⟩, rfl, rfl, rfl⟩

/-- A ping is sent, received twice and executed once. -/
theorem executed_commands_sent_ping :
    ∃ t, run (linkStep zeroHmac (Vector.replicate 32 0) 0) linkAtStart
        (startingUp ++ pingSent :: .frame (radioSend pingPacket) ::
          .frame (radioSend pingPacket) :: commandPass) = some t
      ∧ t.executed.map Packet.stamp = [(0, 1)]
      ∧ (∀ p ∈ t.executed, p.command ∈ t.commands)
      ∧ ((t.executed.filter fun p => p.bootCount = 0).map Packet.command).Sublist t.commands := by
  set events := startingUp ++ pingSent :: .frame (radioSend pingPacket) ::
    .frame (radioSend pingPacket) :: commandPass with hevents
  have hrun : (run (linkStep zeroHmac (Vector.replicate 32 0) 0) linkAtStart events).any
      (fun t => t.executed.map Packet.stamp = [(0, 1)]) = true := by
    decide +kernel
  have hair : AllSteps (linkStep zeroHmac (Vector.replicate 32 0) 0)
      (Unforged zeroHmac (Vector.replicate 32 0) 0) linkAtStart events := by
    decide +kernel
  have hboots : AllSteps (linkStep zeroHmac (Vector.replicate 32 0) 0) BootsForward linkAtStart
      events := by
    decide +kernel
  have hsaves : AllSteps (linkStep zeroHmac (Vector.replicate 32 0) 0) SavesIds linkAtStart
      events := by
    decide +kernel
  obtain ⟨t, ht, hstamps⟩ := (Option.any_eq_true _ _).mp hrun
  obtain ⟨hsent, -, horder⟩ := executed_commands_sent _ _ _ linkAtStart_start hair hboots ht
  exact ⟨t, ht, of_decide_eq_true hstamps, hsent, horder hsaves 0⟩

end CommandLink

end Samwise
