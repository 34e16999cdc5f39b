import Samwise.Link.Uplink

/-!
# Samwise — message ids across restarts of the ground station

The ground station counts its message ids in memory and saves the count at most every ten
minutes; the satellite remembers the largest id it accepted since its last boot. This module
runs the two together: commands, beacons, clean shutdowns, and crashes at any point, each of
the last two followed by a restart from the state file.
-/

namespace Samwise

open Run Ground

/-- The ground station with its state file, every packet it created, and the satellite. -/
structure Station where
  sm : StateManager
  created : List (List UInt8)
  sat : ReplayState

/-- `crashInCreate` is a crash within `Packet.create`, behind `get_next_msg_id`: an id is
drawn, and perhaps saved, but there is no packet. -/
inductive StationEvent where
  | send (env : SaveEnv) (dst src flags seq : Int) (data : List UInt8) (delivered : Bool)
  | beacon (env : SaveEnv) (bootCount : UInt32)
  | shutdown (env : SaveEnv)
  | crash
  | crashInCreate (env : SaveEnv)
  | reboot (bootCount : UInt32)

/-- A packet on the air, as the satellite parses it. -/
def received (packet : List UInt8) : Bool × Packet :=
  parsePacket (radioSend packet) (radioSend packet).length Packet.zero

/-- The `(boot_count, msg_id)` a packet carries. -/
def carriedStamp (packet : List UInt8) : UInt32 × UInt32 := (received packet).2.stamp

section Station

variable (hmac : Hmac) (key : PacketHmacPsk)

/-- Whether the satellite takes a packet. -/
def satelliteAccepts (sat : ReplayState) (packet : List UInt8) : Bool :=
  (received packet).1 && (authenticate hmac key sat (received packet).2).1

/-- The satellite behind a packet. -/
def satelliteReceives (sat : ReplayState) (packet : List UInt8) : ReplayState :=
  if (received packet).1 then
    { sat with lastSeenMsgId := (authenticate hmac key sat (received packet).2).2 }
  else sat

def stationStep (s : Station) : StationEvent → Option Station
  | .send env dst src flags seq data delivered =>
      let result := createPacket hmac key env s.sm dst src flags seq data
      match result.1 with
      | .error _ => some { s with sm := result.2 }
      | .ok packet =>
          some { sm := result.2
                 created := s.created ++ [packet]
                 sat := if delivered then satelliteReceives hmac key s.sat packet else s.sat }
  | .beacon env bootCount => some { s with sm := s.sm.updateFromBeacon env bootCount.toNat }
  | .shutdown env => some { s with sm := .load (s.sm.shutdown env).file }
  | .crash => some { s with sm := .load s.sm.file }
  | .crashInCreate env => some { s with sm := .load (s.sm.getNextMsgId env).2.file }
  | .reboot bootCount => some { s with sat := ⟨bootCount, 0⟩ }

/-- A run starts with a process that loaded the state file, before it created a packet and
before the satellite accepted an id that the file does not know of. -/
structure Station.Start (s : Station) : Prop where
  loaded : s.sm = .load s.sm.file
  created : s.created = []
  seen : (s.sat.lastSeenMsgId.toNat : Int) ≤ s.sm.fileMsgId

/-- Every packet that was created is covered by the state file. -/
def Station.Saved (s : Station) : Prop :=
  ∀ packet ∈ s.created, ((carriedStamp packet).2.toNat : Int) ≤ s.sm.fileMsgId

/-- A process ends when its packets are covered by the state file, or saves as it ends. -/
def endsSaved (s : Station) : StationEvent → Prop
  | .crash => s.Saved
  | .shutdown env => s.Saved ∨ env.writeOk = true
  | .crashInCreate env =>
      s.Saved ∨ env.writeOk = true ∧ saveIntervalSec ≤ env.now - s.sm.lastSaveTime
  | _ => True

/-! ## One created packet -/

/-- A created packet carries the counters of the state manager, and the satellite's check of it
is a check of these. -/
theorem created_packet {env : SaveEnv} {sm : StateManager} {dst src flags seq : Int}
    {payload packet : List UInt8}
    (h : (createPacket hmac key env sm dst src flags seq payload).1 = .ok packet) :
    ∃ bootCount msgId : UInt32,
      sm.bootCount = bootCount.toNat ∧ sm.msgId + 1 = msgId.toNat
        ∧ carriedStamp packet = (bootCount, msgId)
        ∧ (createPacket hmac key env sm dst src flags seq payload).2 = (sm.getNextMsgId env).2
        ∧ ∀ sat, satelliteAccepts hmac key sat packet = true ↔
            bootCount = sat.bootCount ∧ sat.lastSeenMsgId < msgId := by
  obtain ⟨hlen, d, s, f, q, bootCount, msgId, hboot, hmsg, hframe⟩ :=
    createPacket_signed Packet.zero.data h
  have hreceived : received packet
      = (true, signedPacket hmac key d s f q bootCount msgId payload Packet.zero.data) := by
    have hparse := parsePacket_signedPacket hmac key d s f q bootCount msgId Packet.zero [] hlen
    simp only [List.append_nil] at hparse
    unfold received
    rw [hframe, radioSend_eq (four_le_length_frame _)]
    exact hparse
  refine ⟨bootCount, msgId, hboot, hmsg, ?_, ?_, fun sat => ?_⟩
  · unfold carriedStamp
    rw [hreceived]
    rfl
  · rw [createPacket_state, if_neg (by simpa using hlen)]
  · unfold satelliteAccepts authenticate
    rw [hreceived, Bool.true_and]
    exact isPacketAuthenticated_signedPacket hmac key d s f q bootCount msgId Packet.zero.data
      sat.lastSeenMsgId sat.bootCount hlen

/-- What a packet leaves as the last seen id: its own, or the one before. -/
theorem satelliteReceives_lastSeen (sat : ReplayState) (packet : List UInt8) :
    (satelliteReceives hmac key sat packet).lastSeenMsgId = sat.lastSeenMsgId
      ∨ (satelliteReceives hmac key sat packet).lastSeenMsgId = (carriedStamp packet).2 := by
  unfold satelliteReceives
  split
  · rw [authenticate_eq]
    split
    · exact Or.inr rfl
    · exact Or.inl rfl
  · exact Or.inl rfl

end Station

/-! ## The manager and its file -/

/-- What the state file owes the manager: it is never ahead, and level when nothing is unsaved. -/
structure Coherent (sm : StateManager) : Prop where
  nonneg : 0 ≤ sm.fileMsgId
  file_le : sm.fileMsgId ≤ sm.msgId
  clean : sm.dirty = false → sm.fileMsgId = sm.msgId

/-- `sm'` comes after `sm`: neither count has gone back. -/
structure Advanced (sm sm' : StateManager) : Prop where
  coherent : Coherent sm'
  msgId_le : sm.msgId ≤ sm'.msgId
  file_le : sm.fileMsgId ≤ sm'.fileMsgId

theorem Coherent.save {sm : StateManager} (h : Coherent sm) (env : SaveEnv) (force : Bool) :
    Advanced sm (sm.save env force) := by
  cases sm.save_cases env force with
  | inl hsame =>
      rw [hsame]
      exact ⟨h, le_rfl, le_rfl⟩
  | inr hsaved =>
      have hmsg : (sm.save env force).msgId = sm.msgId := (sm.save_counters env force).2
      have hlevel : (sm.save env force).fileMsgId = (sm.save env force).msgId := by
        rw [hsaved.1, hmsg]
      have := h.nonneg
      have := h.file_le
      exact ⟨⟨by omega, hlevel.le, fun _ => hlevel⟩, hmsg.ge, by omega⟩

theorem Coherent.getNextMsgId {sm : StateManager} (h : Coherent sm) (env : SaveEnv) :
    Advanced sm (sm.getNextMsgId env).2 := by
  -- with an id drawn the manager is dirty, so that it may be ahead of its file
  let drawn : StateManager := { sm with msgId := sm.msgId + 1, dirty := true }
  have hdrawn : Coherent drawn := by
    refine ⟨h.nonneg, ?_, fun hclean => absurd hclean Bool.true_eq_false_eq_False⟩
    show sm.fileMsgId ≤ sm.msgId + 1
    have := h.file_le
    omega
  have hsave := hdrawn.save env false
  refine ⟨hsave.coherent, ?_, hsave.file_le⟩
  have hle : sm.msgId + 1 ≤ (sm.getNextMsgId env).2.msgId := hsave.msgId_le
  omega

theorem Coherent.updateFromBeacon {sm : StateManager} (h : Coherent sm) (env : SaveEnv)
    (bootCount : Int) : Advanced sm (sm.updateFromBeacon env bootCount) := by
  unfold StateManager.updateFromBeacon
  split
  · have hdirty : Coherent { sm with bootCount := bootCount, dirty := true } :=
      ⟨h.nonneg, h.file_le, fun hclean => absurd hclean Bool.true_eq_false_eq_False⟩
    have hsave := hdirty.save env true
    exact ⟨hsave.coherent, hsave.msgId_le, hsave.file_le⟩
  · exact ⟨h, le_rfl, le_rfl⟩

theorem Coherent.shutdown {sm : StateManager} (h : Coherent sm) (env : SaveEnv) :
    Advanced sm (sm.shutdown env) := by
  unfold StateManager.shutdown
  split
  · exact h.save env true
  · exact ⟨h, le_rfl, le_rfl⟩

/-- A restart goes on from the file. -/
theorem Coherent.load {file : Option StateFile} (h : 0 ≤ (StateManager.load file).msgId) :
    Coherent (.load file) :=
  ⟨h, le_rfl, fun _ => rfl⟩

/-! ## The invariant -/

/-- Packets carry increasing ids, none of them ahead of the manager, and the satellite has seen
no other. -/
structure Station.Fresh (s : Station) : Prop where
  coherent : Coherent s.sm
  created_le : ∀ packet ∈ s.created, ((carriedStamp packet).2.toNat : Int) ≤ s.sm.msgId
  increasing : s.created.Pairwise fun a b => (carriedStamp a).2 < (carriedStamp b).2
  seen : (s.sat.lastSeenMsgId.toNat : Int) ≤ s.sm.fileMsgId
    ∨ ∃ packet ∈ s.created, (carriedStamp packet).2 = s.sat.lastSeenMsgId

theorem Station.Start.fresh {s : Station} (h : s.Start) : s.Fresh := by
  have hnonneg : 0 ≤ s.sm.fileMsgId := le_trans (Int.natCast_nonneg _) h.seen
  refine ⟨?_, ?_, ?_, Or.inl h.seen⟩
  · rw [h.loaded]
    exact .load hnonneg
  · rw [h.created]
    exact fun packet hpacket => absurd hpacket List.not_mem_nil
  · rw [h.created]
    exact List.Pairwise.nil

theorem Station.Fresh.lastSeen_le {s : Station} (h : s.Fresh) :
    (s.sat.lastSeenMsgId.toNat : Int) ≤ s.sm.msgId := by
  cases h.seen with
  | inl hfile => exact hfile.trans h.coherent.file_le
  | inr hpacket =>
      obtain ⟨packet, hmem, heq⟩ := hpacket
      rw [← heq]
      exact h.created_le packet hmem

theorem Station.Fresh.advance {s : Station} {sm : StateManager} (h : s.Fresh)
    (hsm : Advanced s.sm sm) : Station.Fresh { s with sm := sm } where
  coherent := hsm.coherent
  created_le := fun packet hmem => (h.created_le packet hmem).trans hsm.msgId_le
  increasing := h.increasing
  seen := h.seen.imp_left fun hfile => hfile.trans hsm.file_le

theorem Station.Fresh.restart {s : Station} {sm : StateManager} (h : s.Fresh)
    (hsm : Advanced s.sm sm)
    (hsaved : ∀ packet ∈ s.created, ((carriedStamp packet).2.toNat : Int) ≤ sm.fileMsgId) :
    Station.Fresh { s with sm := .load sm.file } where
  coherent := .load hsm.coherent.nonneg
  created_le := hsaved
  increasing := h.increasing
  seen := h.seen.imp_left fun hfile => hfile.trans hsm.file_le

section Run

variable (hmac : Hmac) (key : PacketHmacPsk)

/-- A packet that is created carries a larger id than every packet before it. -/
theorem Station.Fresh.create {s : Station} {env : SaveEnv} {dst src flags seq : Int}
    {data packet : List UInt8} (h : s.Fresh)
    (hcreate : (createPacket hmac key env s.sm dst src flags seq data).1 = .ok packet)
    (delivered : Bool) :
    Station.Fresh
      { sm := (createPacket hmac key env s.sm dst src flags seq data).2
        created := s.created ++ [packet]
        sat := if delivered then satelliteReceives hmac key s.sat packet else s.sat } := by
  obtain ⟨bootCount, msgId, -, hmsg, hstamp, hsm, -⟩ := created_packet hmac key hcreate
  have hadvance := h.coherent.getNextMsgId env
  have hnext : (s.sm.getNextMsgId env).2.msgId = msgId.toNat := by
    rw [(s.sm.getNextMsgId_eq env).2.1, hmsg]
  rw [hsm]
  refine ⟨hadvance.coherent, ?_, ?_, ?_⟩
  · -- no packet is ahead of the manager
    intro p hp
    cases List.mem_append.mp hp with
    | inl hold => exact (h.created_le p hold).trans hadvance.msgId_le
    | inr hnew =>
        rw [List.mem_singleton.mp hnew, hstamp, hnext]
  · -- the new id is above all before it
    refine List.pairwise_append.mpr ⟨h.increasing, List.pairwise_singleton _ _, ?_⟩
    intro a ha b hb
    have hle := h.created_le a ha
    rw [List.mem_singleton.mp hb, hstamp, UInt32.lt_iff_toNat_lt]
    show (carriedStamp a).2.toNat < msgId.toNat
    omega
  · -- the satellite has seen what it had seen, or the new packet
    have hseen : ∀ sat : ReplayState, sat.lastSeenMsgId = s.sat.lastSeenMsgId
        ∨ sat.lastSeenMsgId = (carriedStamp packet).2 →
        (sat.lastSeenMsgId.toNat : Int) ≤ (s.sm.getNextMsgId env).2.fileMsgId
          ∨ ∃ p ∈ s.created ++ [packet], (carriedStamp p).2 = sat.lastSeenMsgId := by
      intro sat hsat
      cases hsat with
      | inl hold =>
          rw [hold]
          refine h.seen.imp (fun hfile => hfile.trans hadvance.file_le) ?_
          rintro ⟨p, hp, heq⟩
          exact ⟨p, List.mem_append_left _ hp, heq⟩
      | inr hnew =>
          exact Or.inr ⟨packet, List.mem_append_right _ List.mem_cons_self, hnew.symm⟩
    apply hseen
    cases delivered with
    | true => exact satelliteReceives_lastSeen hmac key s.sat packet
    | false => exact Or.inl rfl

/-- One step keeps the invariant, if no process ends with unsaved packets. -/
theorem stationStep_fresh (s : Station) (e : StationEvent) (s' : Station)
    (hend : endsSaved s e) (h : s.Fresh) (hstep : stationStep hmac key s e = some s') :
    s'.Fresh := by
  cases e with
  | send env dst src flags seq data delivered =>
      unfold stationStep at hstep
      cases hcreate : (createPacket hmac key env s.sm dst src flags seq data).1 with
      | error err =>
          simp only [hcreate] at hstep
          obtain rfl := Option.some.inj hstep
          apply h.advance
          rw [createPacket_state]
          split
          · exact ⟨h.coherent, le_rfl, le_rfl⟩
          · exact h.coherent.getNextMsgId env
      | ok packet =>
          simp only [hcreate] at hstep
          obtain rfl := Option.some.inj hstep
          exact h.create hmac key hcreate delivered
  | beacon env bootCount =>
      obtain rfl := Option.some.inj hstep
      exact h.advance (h.coherent.updateFromBeacon env bootCount.toNat)
  | shutdown env =>
      obtain rfl := Option.some.inj hstep
      have hadvance := h.coherent.shutdown env
      apply h.restart hadvance
      intro packet hmem
      cases hend with
      | inl hsaved => exact (hsaved packet hmem).trans hadvance.file_le
      | inr hwrite =>
          -- the last save stores the count, or the file has it already
          have hlevel : (s.sm.shutdown env).fileMsgId = s.sm.msgId := by
            unfold StateManager.shutdown
            split
            · exact s.sm.save_force env hwrite
            · next hclean => exact h.coherent.clean (Bool.eq_false_iff.mpr hclean)
          rw [hlevel]
          exact h.created_le packet hmem
  | crash =>
      obtain rfl := Option.some.inj hstep
      exact h.restart ⟨h.coherent, le_rfl, le_rfl⟩ hend
  | crashInCreate env =>
      obtain rfl := Option.some.inj hstep
      have hadvance := h.coherent.getNextMsgId env
      apply h.restart hadvance
      intro packet hmem
      cases hend with
      | inl hsaved => exact (hsaved packet hmem).trans hadvance.file_le
      | inr hwrite =>
          have hlevel := s.sm.getNextMsgId_saves env hwrite.1 hwrite.2
          have := h.created_le packet hmem
          omega
  | reboot bootCount =>
      obtain rfl := Option.some.inj hstep
      exact ⟨h.coherent, h.created_le, h.increasing, Or.inl h.coherent.nonneg⟩

/-! ## What a lost count costs -/

/-- A command that is created under any counters that still fit. -/
theorem createPacket_ping (env : SaveEnv) {sm : StateManager} {bootCount msgId : UInt32}
    (hboot : sm.bootCount = bootCount.toNat) (hmsg : sm.msgId + 1 = msgId.toNat) :
    ∃ packet, (createPacket hmac key env sm 0 0 0 0 [0]).1 = .ok packet
      ∧ carriedStamp packet = (bootCount, msgId) := by
  have hcreate : (createPacket hmac key env sm 0 0 0 0 [0]).1 = _ :=
    createPacket_eq hmac key 0 0 0 0 bootCount msgId Packet.zero.data env sm (by decide) hboot hmsg
  obtain ⟨b, m, hb, hm, hstamp, -, -⟩ := created_packet hmac key hcreate
  refine ⟨_, hcreate, ?_⟩
  rw [hstamp, Prod.mk.injEq, ← UInt32.toNat_inj, ← UInt32.toNat_inj]
  omega

/-- Enough commands reach every id that is still ahead. -/
theorem commands_reach (bootCount msgId : UInt32) (k : Nat) (s : Station)
    (hboot : s.sm.bootCount = bootCount.toNat) (hmsg : s.sm.msgId + (k + 1) = msgId.toNat)
    (hnonneg : 0 ≤ s.sm.msgId) :
    ∃ es t, run (stationStep hmac key) s es = some t ∧ (∃ rest, t.created = s.created ++ rest
      ∧ (bootCount, msgId) ∈ rest.map carriedStamp) := by
  -- on the ids in between; each command draws one, whether or not it is saved
  induction k generalizing s with
  | zero =>
      obtain ⟨packet, hcreate, hstamp⟩ :=
        createPacket_ping hmac key ⟨0, false⟩ hboot hmsg
      refine ⟨[.send ⟨0, false⟩ 0 0 0 0 [0] false],
        { s with
          sm := (createPacket hmac key ⟨0, false⟩ s.sm 0 0 0 0 [0]).2
          created := s.created ++ [packet] }, ?_, [packet], rfl, ?_⟩
      · rw [run_cons]
        unfold stationStep
        simp only [hcreate]
        rfl
      · rw [List.map_singleton, hstamp]
        exact List.mem_cons_self
  | succ k ih =>
      have hnext : s.sm.msgId + 1 = (UInt32.ofNat (s.sm.msgId.toNat + 1)).toNat := by
        have := msgId.toNat_lt
        rw [UInt32.toNat_ofNat_of_lt' (by show s.sm.msgId.toNat + 1 < 2 ^ 32; omega)]
        omega
      obtain ⟨packet, hcreate, -⟩ := createPacket_ping hmac key ⟨0, false⟩ hboot hnext
      obtain ⟨-, -, -, -, -, hsm, -⟩ := created_packet hmac key hcreate
      have hcounters := s.sm.getNextMsgId_eq ⟨0, false⟩
      rw [← hsm] at hcounters
      obtain ⟨es, t, hrun, rest, hrest, hmem⟩ := ih
        { s with
          sm := (createPacket hmac key ⟨0, false⟩ s.sm 0 0 0 0 [0]).2
          created := s.created ++ [packet] }
        (hcounters.2.2.trans hboot) (by show _ + _ = _; rw [hcounters.2.1]; push_cast at hmsg; omega)
        (by show 0 ≤ _; rw [hcounters.2.1]; omega)
      refine ⟨.send ⟨0, false⟩ 0 0 0 0 [0] false :: es, t, ?_, packet :: rest, ?_, ?_⟩
      · rw [run_cons]
        unfold stationStep
        simp only [hcreate]
        exact hrun
      · rw [hrest, List.append_assoc]
        rfl
      · exact List.mem_cons_of_mem _ hmem

/-- A process that ends before a packet's id is in the file leaves a run in which the satellite
gets two packets with the same counters. -/
theorem unsaved_repeats {s : Station} {sm : StateManager} (h : Advanced s.sm sm)
    (hunsaved : ¬ Station.Saved { s with sm := sm }) :
    ∃ es t, run (stationStep hmac key) { s with sm := .load sm.file } es = some t
      ∧ ¬ (t.created.map carriedStamp).Nodup := by
  unfold Station.Saved at hunsaved
  push Not at hunsaved
  obtain ⟨packet, hmem, hahead⟩ := hunsaved
  have hahead' : sm.fileMsgId < ((carriedStamp packet).2.toNat : Int) := hahead
  -- a beacon teaches the boot count the packet was created under
  let bootCount := (carriedStamp packet).1
  let learnt : StateManager := (StateManager.load sm.file).updateFromBeacon ⟨0, false⟩ bootCount.toNat
  have hload : Coherent (.load sm.file) := .load h.coherent.nonneg
  have hlearnt : learnt.bootCount = bootCount.toNat ∧ learnt.msgId = sm.fileMsgId := by
    show (StateManager.updateFromBeacon _ _ _).bootCount = _
      ∧ (StateManager.updateFromBeacon _ _ _).msgId = _
    unfold StateManager.updateFromBeacon
    split
    · exact StateManager.save_counters _ _ _
    · next hsame => exact ⟨(not_not.mp hsame).symm, rfl⟩
  have hnonneg := h.coherent.nonneg
  obtain ⟨es, t, hrun, rest, hrest, hrepeat⟩ := commands_reach hmac key bootCount (carriedStamp packet).2
    ((carriedStamp packet).2.toNat - sm.fileMsgId.toNat - 1) { s with sm := learnt }
    hlearnt.1 (by show learnt.msgId + _ = _; rw [hlearnt.2]; omega)
    (by show 0 ≤ learnt.msgId; rw [hlearnt.2]; exact hnonneg)
  refine ⟨.beacon ⟨0, false⟩ bootCount :: es, t, hrun, fun hnodup => ?_⟩
  rw [hrest, List.map_append] at hnodup
  exact (List.nodup_append.mp hnodup).2.2 _ (List.mem_map_of_mem hmem) _ hrepeat rfl

/-- **Message ids stay fresh.** In every run whose processes end with their packets in the
state file: no two packets carry the same `(boot_count, msg_id)`, the ids increase from packet
to packet, and a packet created with the boot count the satellite has is one that it accepts.
A process that ends otherwise leaves a run that repeats a pair. -/
theorem message_ids_fresh {s t : Station} {es : List StationEvent} (hstart : s.Start)
    (hend : AllSteps (stationStep hmac key) endsSaved s es)
    (hrun : run (stationStep hmac key) s es = some t) :
    (t.created.map carriedStamp).Nodup
      ∧ t.created.Pairwise (fun a b => (carriedStamp a).2 < (carriedStamp b).2)
      ∧ (∀ env dst src flags seq data packet,
          (createPacket hmac key env t.sm dst src flags seq data).1 = .ok packet →
          t.sm.bootCount = t.sat.bootCount.toNat → satelliteAccepts hmac key t.sat packet = true)
      ∧ (∀ e u, ¬ endsSaved t e → stationStep hmac key t e = some u →
          ∃ fs v, run (stationStep hmac key) u fs = some v
            ∧ ¬ (v.created.map carriedStamp).Nodup) := by
  have hfresh : t.Fresh :=
    invariant (stationStep hmac key) (I := Station.Fresh) (stationStep_fresh hmac key) hend hrun
      hstart.fresh
  refine ⟨?_, hfresh.increasing, ?_, ?_⟩
  · -- increasing ids are different
    rw [List.Nodup, List.pairwise_map]
    refine hfresh.increasing.imp fun hlt heq => ?_
    rw [heq] at hlt
    exact UInt32.lt_irrefl _ hlt
  · intro env dst src flags seq data packet hcreate hboot
    obtain ⟨bootCount, msgId, hb, hmsg, -, -, haccepts⟩ := created_packet hmac key hcreate
    have hseen := hfresh.lastSeen_le
    refine (haccepts t.sat).mpr ⟨?_, ?_⟩
    · rw [← UInt32.toNat_inj]
      omega
    · rw [UInt32.lt_iff_toNat_lt]
      omega
  · -- the condition is needed: a process that ends otherwise has a packet the file does not cover
    intro e u hnot hstep
    cases e with
    | send => exact absurd trivial hnot
    | beacon => exact absurd trivial hnot
    | reboot => exact absurd trivial hnot
    | shutdown env =>
        obtain rfl := Option.some.inj hstep
        have hnotSaved : ¬ t.Saved := fun hsaved => hnot (Or.inl hsaved)
        -- the write at the end failed, so the file is the old one
        have hfile : (t.sm.shutdown env).fileMsgId = t.sm.fileMsgId := by
          have hfails : env.writeOk ≠ true := fun hwrite => hnot (Or.inr hwrite)
          unfold StateManager.shutdown StateManager.save
          rw [if_neg hfails]
          split
          · split <;> rfl
          · rfl
        refine unsaved_repeats hmac key (hfresh.coherent.shutdown env) fun hsaved => ?_
        exact hnotSaved fun packet hmem => (hsaved packet hmem).trans hfile.le
    | crash =>
        obtain rfl := Option.some.inj hstep
        exact unsaved_repeats hmac key ⟨hfresh.coherent, le_rfl, le_rfl⟩ hnot
    | crashInCreate env =>
        obtain rfl := Option.some.inj hstep
        have hnotSaved : ¬ t.Saved := fun hsaved => hnot (Or.inl hsaved)
        -- no save was due, or it failed
        have hfile : (t.sm.getNextMsgId env).2.fileMsgId = t.sm.fileMsgId := by
          show (StateManager.save env false
            { t.sm with msgId := t.sm.msgId + 1, dirty := true }).fileMsgId = _
          unfold StateManager.save
          split
          · rfl
          · next hgate =>
              rw [if_neg]
              · rfl
              · intro hwrite
                refine hnot (Or.inr ⟨hwrite, ?_⟩)
                simpa using hgate
        refine unsaved_repeats hmac key (hfresh.coherent.getNextMsgId env) fun hsaved => ?_
        exact hnotSaved fun packet hmem => (hsaved packet hmem).trans hfile.le

end Run

/-- A ground station without a state file, and a satellite on its first boot. -/
def firstContact : Station := ⟨.load none, [], ⟨0, 0⟩⟩

/-- The ping, created at second `now`. -/
def pingAt (now : Int) : StationEvent := .send ⟨now, true⟩ 255 255 0 0 [0] true

/-- A crash behind the first ping, which the manager has just saved. -/
theorem message_ids_fresh_saved :
    let hmac : Hmac := fun _ _ => Vector.replicate 32 7
    let key : PacketHmacPsk := Vector.replicate 32 1
    ∃ t, run (stationStep hmac key) firstContact [pingAt 1000, .crash, pingAt 1001] = some t
      ∧ t.created.map carriedStamp = [(0, 1), (0, 2)] ∧ (t.created.map carriedStamp).Nodup := by
  intro hmac key
  have hrun : (run (stationStep hmac key) firstContact [pingAt 1000, .crash, pingAt 1001]).any
      (fun t => t.created.map carriedStamp = [(0, 1), (0, 2)]) = true := by decide +kernel
  have hsaved : (stationStep hmac key firstContact (pingAt 1000)).all
      (fun s => ∀ packet ∈ s.created,
        ((carriedStamp packet).2.toNat : Int) ≤ s.sm.fileMsgId) = true := by decide +kernel
  obtain ⟨t, ht, hstamps⟩ := (Option.any_eq_true _ _).mp hrun
  have hend : AllSteps (stationStep hmac key) endsSaved firstContact
      [pingAt 1000, .crash, pingAt 1001] := by
    refine ⟨trivial, fun s hs => ⟨?_, fun s' _ => ⟨trivial, fun _ _ => trivial⟩⟩⟩
    rw [hs, Option.all_some, decide_eq_true_eq] at hsaved
    exact hsaved
  exact ⟨t, ht, of_decide_eq_true hstamps,
    (message_ids_fresh hmac key ⟨rfl, rfl, le_rfl⟩ hend ht).1⟩

/-- Two pings within ten minutes and a crash: the restarted station repeats the second id, and
the satellite rejects its command. -/
theorem crash_repeats_message_id :
    let hmac : Hmac := fun _ _ => Vector.replicate 32 7
    let key : PacketHmacPsk := Vector.replicate 32 1
    firstContact.Start
      ∧ (∃ t, run (stationStep hmac key) firstContact
            [pingAt 1000, pingAt 1001, .crash, pingAt 1002] = some t
          ∧ t.created.map carriedStamp = [(0, 1), (0, 2), (0, 2)])
      ∧ ∃ t packet, run (stationStep hmac key) firstContact
            [pingAt 1000, pingAt 1001, .crash] = some t
          ∧ (createPacket hmac key ⟨1002, true⟩ t.sm 255 255 0 0 [0]).1 = .ok packet
          ∧ t.sm.bootCount = t.sat.bootCount.toNat
          ∧ satelliteAccepts hmac key t.sat packet = false := by
  intro hmac key
  -- both runs are evaluated; the packet of the second one is then named
  have hrepeat : (run (stationStep hmac key) firstContact
      [pingAt 1000, pingAt 1001, .crash, pingAt 1002]).any
      (fun t => t.created.map carriedStamp = [(0, 1), (0, 2), (0, 2)]) = true := by
    decide +kernel
  have hreject : (run (stationStep hmac key) firstContact [pingAt 1000, pingAt 1001, .crash]).any
      (fun t => t.sm.bootCount = t.sat.bootCount.toNat
        ∧ (createPacket hmac key ⟨1002, true⟩ t.sm 255 255 0 0 [0]).1.toOption.any
          (fun packet => satelliteAccepts hmac key t.sat packet = false)) = true := by
    decide +kernel
  obtain ⟨t, ht, hstamps⟩ := (Option.any_eq_true _ _).mp hrepeat
  obtain ⟨u, hu, hboth⟩ := (Option.any_eq_true _ _).mp hreject
  obtain ⟨hboot, hany⟩ := of_decide_eq_true hboth
  obtain ⟨packet, hpacket, hverdict⟩ := (Option.any_eq_true _ _).mp hany
  have hcreate : (createPacket hmac key ⟨1002, true⟩ u.sm 255 255 0 0 [0]).1 = .ok packet := by
    cases hresult : (createPacket hmac key ⟨1002, true⟩ u.sm 255 255 0 0 [0]).1 with
    | error e =>
        rw [hresult] at hpacket
        cases hpacket
    | ok p =>
        rw [hresult] at hpacket
        rw [Option.some.inj hpacket]
  exact ⟨⟨rfl, rfl, le_rfl⟩, ⟨t, ht, of_decide_eq_true hstamps⟩, u, packet, hu, hcreate, hboot,
    of_decide_eq_true hverdict⟩

end Samwise
