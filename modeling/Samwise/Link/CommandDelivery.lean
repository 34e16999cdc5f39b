import Samwise.Link.CommandLink

/-!
# Samwise — what becomes of a command

A command that is sent under the satellite's boot count and received is not lost: while the satellite
stays up its packet waits in `rx_queue`, and nothing in front of it, replayed, genuine or without a
right tag, keeps it from being executed when its turn comes (`Reception.Awaits`). For that its id has
to be above theirs: nobody but the ground station makes tags, every boot has a larger counter, and the
ground station ends its processes with their ids saved.
-/

namespace Samwise

open Run Ground

section CommandDelivery

variable {hmac : Hmac} {key : PacketHmacPsk} {radioNode : UInt8}

/-! ## A packet in the queue -/

/-- The packet waits, and it is accepted when its turn comes: what is in front of it and carries a
right tag and the boot count has a smaller id, or is the same command. -/
structure Reception.Awaits (hmac : Hmac) (key : PacketHmacPsk) (p : Packet) (r : Reception) :
    Prop where
  place : ∃ before after, r.rxQueue.elems = before ++ p :: after ∧
    ∀ q ∈ before, Accepts hmac key r.lastSeenMsgId r.rebootCounter q →
      q.msgId < p.msgId ∨ q.command = p.command
  accepts : Accepts hmac key r.lastSeenMsgId r.rebootCounter p

/-- A step of the satellite: the packet waits on, or its command is executed. -/
theorem Reception.Awaits.step {p : Packet} {s : Running} (hs : s.Underway) (hirqs : s.irqs = true)
    (h : s.world.reception.Awaits hmac key p) {e : RunEvent} {out : Option Packet} {r : Reception}
    (hstep : ReceptionStep hmac (some key) s e out r) :
    (∃ q, out = some q ∧ q.command = p.command) ∨ r.Awaits hmac key p := by
  obtain ⟨⟨before, after, hqueue, hfront⟩, haccepts⟩ := h
  cases hstep with
  | same e => exact .inr ⟨⟨before, after, hqueue, hfront⟩, haccepts⟩
  | init hphase =>
    -- the handlers are installed, so the radio task is behind its initialisation
    rw [Running.Underway, hphase] at hs
    exact absurd List.mem_cons_self (hs.2 hirqs)
  | received hon =>
    next packet =>
    right
    by_cases hroom : s.world.reception.rxQueue.elems.length < rxQueueSize
    · refine ⟨⟨before, after ++ [packet], ?_, hfront⟩, haccepts⟩
      show (s.world.reception.rxQueue.tryAdd packet).2.elems = _
      rw [(BoundedQueue.tryAdd_of_lt packet hroom).2, hqueue, List.append_assoc, List.cons_append]
    · refine ⟨⟨before, after, ?_, hfront⟩, haccepts⟩
      show (s.world.reception.rxQueue.tryAdd packet).2.elems = _
      rw [BoundedQueue.tryAdd_of_full packet hroom, hqueue]
  | taken =>
    rcases Reception.take_cases hmac key s.world.reception with
      ⟨hempty, _⟩ | ⟨q, rest, hrest, hcase⟩
    · rw [hempty] at hqueue
      exact absurd (congrArg List.length hqueue) (by simp)
    · rw [hrest] at hqueue
      cases before with
      | nil =>
        -- its turn has come
        obtain ⟨rfl, -⟩ := List.cons.inj hqueue
        rcases hcase with ⟨_, htake⟩ | ⟨hnot, _⟩
        · rw [htake]
          exact .inl ⟨q, rfl, rfl⟩
        · exact absurd haccepts hnot
      | cons q' before =>
        obtain ⟨rfl, htail⟩ := List.cons.inj hqueue
        rcases hcase with ⟨hq, htake⟩ | ⟨_, htake⟩
        · rw [htake]
          rcases hfront q List.mem_cons_self hq with hlt | hsame
          · refine .inr ⟨⟨before, after, htail, fun x hx hax => ?_⟩, haccepts.1, hlt, haccepts.2.2⟩
            -- what is accepted behind `q` was accepted before it
            exact hfront x (List.mem_cons_of_mem _ hx)
              ⟨hax.1, UInt32.lt_trans hq.2.1 hax.2.1, hax.2.2⟩
          · exact .inl ⟨q, rfl, hsame⟩
        · rw [htake]
          exact .inr ⟨⟨before, after, htail, fun x hx => hfront x (List.mem_cons_of_mem _ hx)⟩,
            haccepts⟩

/-- The radio's handlers stay installed. -/
theorem runStep_irqs {psk : Option PacketHmacPsk} {s s' : Running} {e : RunEvent}
    (h : runStep hmac psk s e = some s') (hirqs : s.irqs = true) : s'.irqs = true := by
  cases e with
  | rxDone packet =>
    rw [runStep, if_pos hirqs] at h
    obtain rfl := Option.some.inj h
    exact hirqs
  | txDone =>
    rw [runStep, if_pos hirqs] at h
    obtain rfl := Option.some.inj h
    exact hirqs
  | uartRxCallback =>
    rw [runStep] at h
    split at h
    · obtain rfl := Option.some.inj h
      exact hirqs
    · cases h
  | main env polls =>
    obtain rfl := Option.some.inj h
    unfold mainPiece
    split
    · exact Bool.or_eq_true_iff.mpr (.inl hirqs)
    · exact hirqs
    · split
      · exact hirqs
      · exact hirqs
    · unfold taskRound
      dsimp only
      split
      · split
        · exact hirqs
        · exact hirqs
      · exact hirqs
    · exact hirqs
    · exact hirqs

/-- The satellite does not reboot. -/
def LinkEvent.StaysUp : LinkEvent → Prop
  | .reboot _ _ => False
  | _ => True

/-- Nor is anything sent. -/
def LinkEvent.Quiet : LinkEvent → Prop
  | .ground (.send _ _ _ _ _ _ _) => False
  | e => e.StaysUp

instance : DecidablePred LinkEvent.StaysUp
  | .reboot _ _ => instDecidableFalse
  | .ground _ | .frame _ | .flight _ => instDecidableTrue

instance (e : LinkEvent) : Decidable e.Quiet := by
  unfold LinkEvent.Quiet
  split <;> infer_instance

/-- The command was executed, or its packet waits and is accepted when its turn comes. -/
structure CommandLink.Keeps (hmac : Hmac) (key : PacketHmacPsk) (p : Packet) (s : CommandLink) :
    Prop where
  irqs : s.running.irqs = true
  kept : (∃ q ∈ s.executed, q.command = p.command) ∨ s.reception.Awaits hmac key p

theorem CommandLink.Keeps.flight {p : Packet} {s : CommandLink} (h : s.Keeps hmac key p)
    (hs : s.running.Underway) {e : RunEvent} {r : Running}
    (hstep : runStep hmac (some key) s.running e = some r) :
    CommandLink.Keeps hmac key p { s with
      running := r
      executed := s.executed ++ (executedAt hmac (some key) s.running e).toList } where
  irqs := runStep_irqs hstep h.irqs
  kept := by
    rcases h.kept with ⟨q, hq, hcommand⟩ | hawaits
    · exact .inl ⟨q, List.mem_append_left _ hq, hcommand⟩
    · refine (hawaits.step hs h.irqs (runStep_reception hs hstep)).imp ?_ id
      rintro ⟨q, hout, hcommand⟩
      refine ⟨q, List.mem_append_right _ ?_, hcommand⟩
      rw [hout]
      exact List.mem_singleton_self q

/-- **A step without a reboot keeps a command.** -/
theorem linkStep_keeps {p : Packet} {s s' : CommandLink} {e : LinkEvent} (hup : e.StaysUp)
    (hs : s.running.Underway) (h : s.Keeps hmac key p)
    (hstep : linkStep hmac key radioNode s e = some s') : s'.Keeps hmac key p := by
  cases e with
  | ground e =>
    rw [linkStep] at hstep
    split at hstep
    · obtain ⟨t, -, rfl⟩ := Option.map_eq_some_iff.mp hstep
      exact ⟨h.irqs, h.kept⟩
    · cases hstep
  | frame fifo =>
    rw [linkStep] at hstep
    split at hstep
    · next q _ =>
      obtain ⟨r, hr, rfl⟩ := Option.map_eq_some_iff.mp hstep
      have hkeeps := h.flight hs hr
      have hnone : s.executed ++ (executedAt hmac (some key) s.running (.rxDone q)).toList
          = s.executed := List.append_nil _
      rw [hnone] at hkeeps
      exact hkeeps
    · split at hstep
      · obtain rfl := Option.some.inj hstep
        exact h
      · cases hstep
  | flight e =>
    rw [linkStep] at hstep
    split at hstep
    · obtain ⟨r, hr, rfl⟩ := Option.map_eq_some_iff.mp hstep
      exact h.flight hs hr
    · cases hstep
  | reboot env d => exact absurd hup fun hfalse => hfalse

/-- Reception never assigns the reboot counter. -/
theorem ReceptionStep.rebootCounter {s : Running} {e : RunEvent} {out : Option Packet}
    {r : Reception} (h : ReceptionStep hmac (some key) s e out r) :
    r.rebootCounter = s.world.reception.rebootCounter := by
  cases h with
  | taken =>
    rcases Reception.take_cases hmac key s.world.reception with
      ⟨_, htake⟩ | ⟨_, _, _, ⟨_, htake⟩ | ⟨_, htake⟩⟩
    · rw [htake]
    · rw [htake]
    · rw [htake]
  | _ => rfl

/-- Where nothing is sent and nothing reboots, the commands and the reboot counter stay. -/
theorem linkStep_quiet {s s' : CommandLink} {e : LinkEvent} (hquiet : e.Quiet)
    (hs : s.running.Underway) (hstep : linkStep hmac key radioNode s e = some s') :
    s'.created = s.created ∧ s'.reception.rebootCounter = s.reception.rebootCounter := by
  cases e with
  | ground e =>
    rw [linkStep] at hstep
    split at hstep
    · obtain ⟨t, ht, rfl⟩ := Option.map_eq_some_iff.mp hstep
      cases e with
      | send => exact absurd hquiet fun hfalse => hfalse
      | _ =>
        obtain rfl := Option.some.inj ht
        exact ⟨rfl, rfl⟩
    · cases hstep
  | frame fifo =>
    rw [linkStep] at hstep
    split at hstep
    · obtain ⟨r, hr, rfl⟩ := Option.map_eq_some_iff.mp hstep
      exact ⟨rfl, (runStep_reception hs hr).rebootCounter⟩
    · split at hstep
      · obtain rfl := Option.some.inj hstep
        exact ⟨rfl, rfl⟩
      · cases hstep
  | flight e =>
    rw [linkStep] at hstep
    split at hstep
    · obtain ⟨r, hr, rfl⟩ := Option.map_eq_some_iff.mp hstep
      exact ⟨rfl, (runStep_reception hs hr).rebootCounter⟩
    · cases hstep
  | reboot env d => exact absurd hquiet fun hfalse => hfalse

theorem linkStep_underway {s s' : CommandLink} {e : LinkEvent} (hup : e.StaysUp)
    (hs : s.running.Underway) (hstep : linkStep hmac key radioNode s e = some s') :
    s'.running.Underway := by
  cases e with
  | ground e =>
    rw [linkStep] at hstep
    split at hstep
    · obtain ⟨t, -, rfl⟩ := Option.map_eq_some_iff.mp hstep
      exact hs
    · cases hstep
  | frame fifo =>
    rw [linkStep] at hstep
    split at hstep
    · obtain ⟨r, hr, rfl⟩ := Option.map_eq_some_iff.mp hstep
      exact runStep_underway hs hr
    · split at hstep
      · obtain rfl := Option.some.inj hstep
        exact hs
      · cases hstep
  | flight e =>
    rw [linkStep] at hstep
    split at hstep
    · obtain ⟨r, hr, rfl⟩ := Option.map_eq_some_iff.mp hstep
      exact runStep_underway hs hr
    · cases hstep
  | reboot env d => exact absurd hup fun hfalse => hfalse

/-- The command is the last one that was sent, under the satellite's boot count. -/
structure CommandLink.Leads (p : Packet) (s : CommandLink) : Prop where
  last : ∀ command ∈ s.commands, command = p.command ∨ command.2.2.2 < p.msgId
  bootCount : p.bootCount = s.reception.rebootCounter

/-- The last command that was sent is received, into a queue with room. -/
theorem CommandLink.Sound.keeps {p : Packet} {s s' : CommandLink} {fifo : List UInt8}
    (h : s.Sound hmac key) (hleads : s.Leads p) (hpos : 0 < p.msgId)
    (htag : hmac key (hmacMessage p) = p.hmac) (hp : addressedPacket radioNode fifo = some p)
    (hroom : s.reception.rxQueue.elems.length < rxQueueSize)
    (hstep : linkStep hmac key radioNode s (.frame fifo) = some s') : s'.Keeps hmac key p := by
  rw [linkStep, hp] at hstep
  obtain ⟨r, hr, rfl⟩ := Option.map_eq_some_iff.mp hstep
  rw [runStep] at hr
  split at hr
  · next hirqs =>
    obtain rfl := Option.some.inj hr
    refine ⟨hirqs, ?_⟩
    by_cases hlt : s.reception.lastSeenMsgId < p.msgId
    · refine .inr ⟨⟨s.reception.rxQueue.elems, [], ?_, fun q hq haccepts => ?_⟩,
        hleads.bootCount, hlt, htag⟩
      · exact (BoundedQueue.tryAdd_of_lt p hroom).2
      · exact (hleads.last _ (h.reception.queued q hq haccepts.2.2)).symm
    · -- no smaller id was accepted last, so it was this one
      left
      rcases h.reception.seen with hzero | ⟨q, hq, hstamp⟩
      · rw [hzero] at hlt
        exact absurd hpos hlt
      · refine ⟨q, hq, (hleads.last _ (h.reception.sent q hq)).resolve_right fun hid => hlt ?_⟩
        have hseen : q.msgId = s.reception.lastSeenMsgId := congrArg Prod.snd hstamp
        rw [← hseen]
        exact hid
  · cases hr

/-- A packet is sent: its tag is right, its id is not 0, and it leads. -/
theorem CommandLink.Sound.leads {s s' : CommandLink} (h : s.Sound hmac key)
    (hfresh : s.station.Fresh) {env : SaveEnv} {dst src flags seq : Int} {data packet : List UInt8}
    (hcreate : (createPacket hmac key env s.sm dst src flags seq data).1 = .ok packet)
    (hcount : s.sm.bootCount = s.reception.rebootCounter.toNat)
    (hsend : linkStep hmac key radioNode s (.ground (.send env dst src flags seq data false))
      = some s') :
    s'.Sound hmac key ∧ s'.Leads (received packet).2 ∧ 0 < (received packet).2.msgId
      ∧ hmac key (hmacMessage (received packet).2) = (received packet).2.hmac := by
  have hunforged : Unforged hmac key radioNode s (.ground (.send env dst src flags seq data false)) :=
    trivial
  have hsaves : SavesIds s (.ground (.send env dst src flags seq data false)) := trivial
  have hsound' : s'.Sound hmac key := linkStep_sound ⟨hunforged, trivial⟩ h hsend
  have hincreasing := (linkStep_fresh hsaves hsound' hfresh hsend).increasing
  obtain ⟨bootCount, msgId, hboot, hid, hstamp, -, haccepts⟩ := created_packet hmac key hcreate
  have hcarriedBoot : (received packet).2.bootCount = bootCount := congrArg Prod.fst hstamp
  have hcarriedId : (received packet).2.msgId = msgId := congrArg Prod.snd hstamp
  have hpos : (0 : UInt32) < msgId := by
    have hnonneg : 0 ≤ s.sm.fileMsgId := hfresh.coherent.nonneg
    have hle : s.sm.fileMsgId ≤ s.sm.msgId := hfresh.coherent.file_le
    rw [UInt32.lt_iff_toNat_lt]
    show 0 < msgId.toNat
    omega
  -- the packet is behind the others
  have hafter : s'.created = s.created ++ [packet]
      ∧ s'.reception.rebootCounter = s.reception.rebootCounter := by
    have honGround : (StationEvent.send env dst src flags seq data false).OnGround := rfl
    rw [linkStep, if_pos honGround] at hsend
    obtain ⟨x, hx, rfl⟩ := Option.map_eq_some_iff.mp hsend
    have hstation : s.station.sm = s.sm := rfl
    unfold stationStep at hx
    simp only [hstation, hcreate] at hx
    obtain rfl := Option.some.inj hx
    exact ⟨rfl, rfl⟩
  have hcreated : s'.station.created = s.created ++ [packet] := hafter.1
  rw [hcreated] at hincreasing
  refine ⟨hsound', ⟨fun command hcommand => ?_, ?_⟩, ?_, ?_⟩
  · obtain ⟨packet', hpacket', rfl⟩ := List.mem_map.mp hcommand
    rw [hafter.1] at hpacket'
    rcases List.mem_append.mp hpacket' with hold | hnew
    · exact .inr ((List.pairwise_append.mp hincreasing).2.2 _ hold _ (List.mem_singleton_self _))
    · rw [List.mem_singleton.mp hnew]
      exact .inl rfl
  · rw [hcarriedBoot, hafter.2, ← UInt32.toNat_inj]
    omega
  · rw [hcarriedId]
    exact hpos
  · have hpass := (haccepts ⟨bootCount, 0⟩).mpr ⟨rfl, hpos⟩
    unfold satelliteAccepts at hpass
    exact ((authenticate_true_iff hmac key _ _).mp (Bool.and_eq_true_iff.mp hpass).2).2.2

/-- Nothing is sent and nothing reboots: the command goes on leading. -/
theorem CommandLink.Leads.quiet {p : Packet} {s s' : CommandLink} {e : LinkEvent} (h : s.Leads p)
    (hquiet : e.Quiet) (hs : s.running.Underway)
    (hstep : linkStep hmac key radioNode s e = some s') : s'.Leads p := by
  obtain ⟨hcreated, hcounter⟩ := linkStep_quiet hquiet hs hstep
  refine ⟨?_, ?_⟩
  · rw [CommandLink.commands, hcreated]
    exact h.last
  · rw [hcounter]
    exact h.bootCount

variable (hmac key radioNode)

/-- **What is sent and received is executed.** A command that was sent under the satellite's boot
count reaches `rx_queue`, before another one is sent or the satellite reboots, and with room for it.
Up to then nobody else has made tags, and up to the sending every boot had a larger counter than the
one before it, and the ground station's processes ended with their ids saved. Then, whatever comes in
behind it and in whatever order the satellite goes on, until the next reboot the command was executed
or its packet waits in `rx_queue`. -/
theorem received_command_kept {s t u v : CommandLink} {es fs gs : List LinkEvent} {env : SaveEnv}
    {dst src flags seq : Int} {data packet fifo : List UInt8} (hstart : s.Start)
    (hair : AllSteps (linkStep hmac key radioNode) (Unforged hmac key radioNode) s
      (es ++ .ground (.send env dst src flags seq data false) :: fs))
    (hboots : AllSteps (linkStep hmac key radioNode) BootsForward s es)
    (hsaves : AllSteps (linkStep hmac key radioNode) SavesIds s es)
    (hrun : run (linkStep hmac key radioNode) s es = some t)
    (hcreate : (createPacket hmac key env t.sm dst src flags seq data).1 = .ok packet)
    (hcount : t.sm.bootCount = t.reception.rebootCounter.toNat)
    (hsent : run (linkStep hmac key radioNode) t
      (.ground (.send env dst src flags seq data false) :: fs) = some u)
    (hquiet : ∀ e ∈ fs, e.Quiet)
    (hframe : addressedPacket radioNode fifo = some (received packet).2)
    (hroom : u.reception.rxQueue.elems.length < rxQueueSize)
    (hreceived : run (linkStep hmac key radioNode) u (.frame fifo :: gs) = some v)
    (hup : ∀ e ∈ gs, e.StaysUp) :
    (∃ q ∈ v.executed, q.command = (received packet).2.command)
      ∨ (received packet).2 ∈ v.reception.rxQueue.elems := by
  obtain ⟨t', hsend, hwait⟩ := run_cons_some _ hsent
  obtain ⟨v', hin, hrest⟩ := run_cons_some _ hreceived
  -- up to the sending, and the sending
  obtain ⟨hsound, hfresh⟩ :=
    run_sound_fresh hstart (AllSteps.of_append _ hair) hboots hsaves hrun
  obtain ⟨hsound', hleads', hpos, htag⟩ := hsound.leads hfresh hcreate hcount hsend
  -- until it is received
  have hair' := (AllSteps.append_right _ hair hrun).2 t' hsend
  obtain ⟨hsoundu, hleadsu⟩ : u.Sound hmac key ∧ u.Leads (received packet).2 :=
    invariant (linkStep hmac key radioNode)
      (I := fun s => s.Sound hmac key ∧ s.Leads (received packet).2)
      (fun s e s' hok h hstep => by
        refine ⟨linkStep_sound ⟨hok.1, ?_⟩ h.1 hstep, h.2.quiet hok.2 h.1.underway hstep⟩
        cases e with
        | reboot env d => exact absurd hok.2 fun hfalse => hfalse
        | _ => trivial)
      (AllSteps.and _ hair' (AllSteps.of_mem _ (fun e he _ => hquiet e he) t')) hwait
      ⟨hsound', hleads'⟩
  -- and behind that
  have hup' : (LinkEvent.frame fifo).StaysUp := trivial
  obtain ⟨-, hkeeps⟩ : v.running.Underway ∧ v.Keeps hmac key (received packet).2 :=
    invariant (linkStep hmac key radioNode) (P := fun _ e => e.StaysUp)
      (I := fun s => s.running.Underway ∧ s.Keeps hmac key (received packet).2)
      (fun s e s' hup h hstep =>
        ⟨linkStep_underway hup h.1 hstep, linkStep_keeps hup h.1 h.2 hstep⟩)
      (AllSteps.of_mem _ (fun e he _ => hup e he) v') hrest
      ⟨linkStep_underway hup' hsoundu.underway hin,
        hsoundu.keeps hleadsu hpos htag hframe hroom hin⟩
  refine hkeeps.kept.imp id ?_
  rintro ⟨⟨before, after, hqueue, _⟩, _⟩
  rw [hqueue]
  exact List.mem_append_right _ List.mem_cons_self

/-- `parse_packet` reads nothing behind the frame. -/
theorem parsePacket_rxBuffer (fifo : List UInt8) (p : Packet) :
    parsePacket (rxBuffer fifo) fifo.length p = parsePacket fifo fifo.length p := by
  have hbyte (i : Nat) : byteAt (rxBuffer fifo) i = byteAt fifo i := by
    unfold byteAt rxBuffer
    rw [List.getD_eq_getElem?_getD, List.getD_eq_getElem?_getD]
    by_cases hi : i < fifo.length
    · rw [List.getElem?_append_left hi]
    · have hle : fifo.length ≤ i := Nat.le_of_not_lt hi
      rw [List.getElem?_append_right hle, List.getElem?_eq_none hle, List.getElem?_replicate]
      split <;> rfl
  have hpart {i k : Nat} (h : i + k ≤ fifo.length) :
      ((rxBuffer fifo).drop i).take k = (fifo.drop i).take k := by
    unfold rxBuffer
    rw [List.drop_append_of_le_length (by omega), List.take_append_of_le_length]
    rw [List.length_drop]
    omega
  have hheader : parseHeader (rxBuffer fifo) p = parseHeader fifo p := by
    unfold parseHeader
    rw [hbyte, hbyte, hbyte, hbyte, hbyte]
  unfold parsePacket
  rw [hheader]
  dsimp only
  split
  · rfl
  split
  · rfl
  split
  · rfl
  · next hsize =>
    have hsize : fifo.length = 5 + (parseHeader fifo p).len.toNat + 40 := not_not.mp hsize
    unfold parseBody LittleEndian.ofLe32 packetHeaderSize packetHmacSize tcSha256DigestSize
    dsimp only
    rw [hpart (by omega), hpart (by omega), hpart (by omega), hpart (by omega)]

theorem addressedPacket_radioSend {radioNode : UInt8} {packet : List UInt8}
    (hparsed : (received packet).1 = true)
    (hdst : (received packet).2.dst = rhBroadcastAddress ∨ (received packet).2.dst = radioNode) :
    addressedPacket radioNode (radioSend packet) = some (received packet).2 := by
  have hparse : parsePacket (radioSend packet) (radioSend packet).length Packet.zero =
      received packet := rfl
  unfold addressedPacket
  rw [parsePacket_rxBuffer, hparse]
  dsimp only
  rw [hparsed, if_neg (by decide), if_pos hdst]

/-- The ping again: it was executed by the end of the pass behind its reception. -/
theorem received_command_kept_ping :
    ∃ v, run (linkStep zeroHmac (Vector.replicate 32 0) 0) linkAtStart
        (startingUp ++ pingSent :: .frame (radioSend pingPacket) :: commandPass) = some v
      ∧ v.reception.rxQueue.elems = []
      ∧ ((∃ q ∈ v.executed, q.command = (received pingPacket).2.command)
        ∨ (received pingPacket).2 ∈ v.reception.rxQueue.elems) := by
  -- the states in between
  have hrun : (run (linkStep zeroHmac (Vector.replicate 32 0) 0) linkAtStart startingUp).any
      (fun t => t.sm.bootCount = t.reception.rebootCounter.toNat
        ∧ (createPacket zeroHmac (Vector.replicate 32 0) ⟨1000, true⟩ t.sm 255 255 0 0 [0]).1.toOption
          = some pingPacket
        ∧ (run (linkStep zeroHmac (Vector.replicate 32 0) 0) t [pingSent]).any (fun u =>
          u.reception.rxQueue.elems.length < rxQueueSize
          ∧ (run (linkStep zeroHmac (Vector.replicate 32 0) 0) u
            (.frame (radioSend pingPacket) :: commandPass)).any
              fun v => v.reception.rxQueue.elems = [])) = true := by
    decide +kernel
  obtain ⟨t, ht, hchecked⟩ := (Option.any_eq_true _ _).mp hrun
  obtain ⟨hcount, hcreated, hsent⟩ := of_decide_eq_true hchecked
  obtain ⟨u, hu, hchecked⟩ := (Option.any_eq_true _ _).mp hsent
  obtain ⟨hroom, hreceived⟩ := of_decide_eq_true hchecked
  obtain ⟨v, hv, hempty⟩ := (Option.any_eq_true _ _).mp hreceived
  have hcreate : (createPacket zeroHmac (Vector.replicate 32 0) ⟨1000, true⟩ t.sm 255 255 0 0
      [0]).1 = .ok pingPacket := by
    cases hresult : (createPacket zeroHmac (Vector.replicate 32 0) ⟨1000, true⟩ t.sm 255 255 0 0
        [0]).1 with
    | error e =>
      rw [hresult] at hcreated
      cases hcreated
    | ok packet =>
      rw [hresult] at hcreated
      rw [Option.some.inj hcreated]
  have hair : AllSteps (linkStep zeroHmac (Vector.replicate 32 0) 0)
      (Unforged zeroHmac (Vector.replicate 32 0) 0) linkAtStart (startingUp ++ [pingSent]) := by
    decide +kernel
  have hboots : AllSteps (linkStep zeroHmac (Vector.replicate 32 0) 0) BootsForward linkAtStart
      startingUp := by
    decide +kernel
  have hsaves : AllSteps (linkStep zeroHmac (Vector.replicate 32 0) 0) SavesIds linkAtStart
      startingUp := by
    decide +kernel
  refine ⟨v, ?_, of_decide_eq_true hempty, ?_⟩
  · have hsplit : run (linkStep zeroHmac (Vector.replicate 32 0) 0) t
        ([pingSent] ++ .frame (radioSend pingPacket) :: commandPass) = some v := by
      rw [run_append, hu, Option.bind_some, hv]
    rw [run_append, ht, Option.bind_some]
    exact hsplit
  · exact received_command_kept zeroHmac (Vector.replicate 32 0) 0 linkAtStart_start hair hboots
      hsaves ht hcreate hcount hu (fun e he => absurd he List.not_mem_nil)
      (addressedPacket_radioSend (by decide +kernel) (.inl (by decide +kernel))) hroom hv
      (by decide +kernel)

end CommandDelivery

end Samwise
