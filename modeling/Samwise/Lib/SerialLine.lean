import Mathlib.Logic.Relation

/-!
# Two programs on a serial line

A program at the end of a serial line is a state type with a map `σ → Action σ`: what it does
next, and where that leads. Time is counted in bits of the line, and a byte takes
`byteTime` of them. The line is ideal: a byte that a transmitter takes arrives at the other
end, unchanged, once the bytes before it and itself have passed.

Each end has a clock of its own, the time up to which its program has been run. A program
that needs nothing from the other one runs on; a program that waits for a byte runs on when
the byte's time of arrival is known, and when both wait and nothing is on the line, the
deadline that comes first passes. So one `step` relation says what happens, and it is a
function.
-/

namespace SerialLine

/-- A start bit, eight data bits and a stop bit. -/
def byteTime : Nat := 10

/-- What a program does next. A continuation is given the time at which the action is over. -/
inductive Action (σ : Type) where
  | returned
  | sleep (ticks : Nat) (next : Nat → σ)
  /-- Hand a byte to the transmitter as soon as it has room. -/
  | put (b : UInt8) (next : Nat → σ)
  /-- The same, but give up once the deadline is reached and there is no room. -/
  | putBefore (deadline : Nat) (b : UInt8) (next late : Nat → σ)
  /-- Take the next byte, if one is there before the deadline. -/
  | get (deadline : Nat) (next : Nat → UInt8 → σ) (late : Nat → σ)

/-- One byte of a read of `n` bytes, of which `received` are there. -/
def Action.read {σ : Type} (n deadline : Nat) (received : List UInt8) (again : List UInt8 → σ)
    (full : Nat → List UInt8 → σ) (late : Nat → List UInt8 → σ) : Action σ :=
  .get deadline
    (fun now b =>
      let received := received ++ [b]
      if received.length = n then full now received else again received)
    (fun now => late now received)

/-- One end of the line. `sentUntil` is the time at which the line is free again, `inbox` the
bytes on their way and waiting with their times of arrival, and `expired` says that a
deadline has passed. -/
structure Port (σ : Type) where
  state : σ
  clock : Nat
  sentUntil : Nat
  inbox : List (Nat × UInt8)
  expired : Bool

namespace Port

variable {σ : Type}

def init (s : σ) : Port σ := ⟨s, 0, 0, [], false⟩

/-- The time at which the transmitter has room: it keeps `holding` bytes behind the one that
is on the line. -/
def room (holding : Nat) (p : Port σ) : Nat := max p.clock (p.sentUntil - byteTime * holding)

/-- The end of the line after the program has put a byte at time `t`. -/
def afterPut (p : Port σ) (t : Nat) (s : σ) : Port σ :=
  { p with state := s, clock := t, sentUntil := max t p.sentUntil + byteTime }

/-- The end of the line after a deadline has passed. -/
def afterDeadline (p : Port σ) (deadline : Nat) (late : Nat → σ) : Port σ :=
  { p with state := late (max p.clock deadline), clock := max p.clock deadline, expired := true }

/-- Bytes are on their way. -/
def receive (p : Port σ) (bytes : List (Nat × UInt8)) : Port σ :=
  { p with inbox := p.inbox ++ bytes }

/-- The next action, with what it sends, where it needs nothing that is not known yet. -/
def move (holding : Nat) (act : σ → Action σ) (p : Port σ) :
    Option (Port σ × List (Nat × UInt8)) :=
  match act p.state with
  | .returned => none
  | .sleep ticks next =>
    some ({ p with state := next (p.clock + ticks), clock := p.clock + ticks }, [])
  | .put b next =>
    let t := p.room holding
    some (p.afterPut t (next t), [(max t p.sentUntil + byteTime, b)])
  | .putBefore deadline b next late =>
    let t := p.room holding
    if t ≤ max p.clock deadline then
      some (p.afterPut t (next t), [(max t p.sentUntil + byteTime, b)])
    else some (p.afterDeadline deadline late, [])
  | .get deadline next late =>
    match p.inbox with
    | [] => none
    | (arrival, b) :: rest =>
      let t := max p.clock arrival
      if t < deadline then
        some ({ p with state := next t b, clock := t, inbox := rest }, [])
      else some (p.afterDeadline deadline late, [])

/-- The deadline of the read the program waits in. -/
def waits (act : σ → Action σ) (p : Port σ) : Option (Nat × Port σ) :=
  match act p.state with
  | .get deadline _ late => some (deadline, p.afterDeadline deadline late)
  | _ => none

end Port

/-- The two ends, with the transmitter of each. -/
structure Line (α β : Type) where
  left : Port α
  right : Port β

section Programs

variable {α β : Type} (h k : Nat) (actL : α → Action α) (actR : β → Action β)

/-- What happens next; `none` where both programs have returned. -/
def step (l : Line α β) : Option (Line α β) :=
  match l.left.move h actL with
  | some (left, out) => some ⟨left, l.right.receive out⟩
  | none =>
    match l.right.move k actR with
    | some (right, out) => some ⟨l.left.receive out, right⟩
    | none =>
      match l.left.waits actL, l.right.waits actR with
      | none, none => none
      | some (_, left), none => some ⟨left, l.right⟩
      | none, some (_, right) => some ⟨l.left, right⟩
      | some (d, left), some (e, right) =>
        some (if d ≤ e then ⟨left, l.right⟩ else ⟨l.left, right⟩)

/-- What a line comes to. -/
def Reaches (a b : Line α β) : Prop :=
  Relation.ReflTransGen (fun a b => step h k actL actR a = some b) a b

/-- The two programs come to an end, with a result that satisfies `good` and no deadline
passed on the way. -/
def Completes (good : α → β → Prop) (l : Line α β) : Prop :=
  ∃ l', Reaches h k actL actR l l' ∧ step h k actL actR l' = none ∧
    good l'.left.state l'.right.state ∧ l'.left.expired = false ∧ l'.right.expired = false

end Programs

/-! ## One end on its own -/

section Moves

variable {σ : Type} {h : Nat} {act : σ → Action σ} {p q r : Port σ}

/-- The bytes `bs`, one after the other on the line from time `u` on. -/
def frames : Nat → List UInt8 → List (Nat × UInt8)
  | _, [] => []
  | u, b :: bs => (u + byteTime, b) :: frames (u + byteTime) bs

theorem frames_append (u : Nat) (xs ys : List UInt8) :
    frames u (xs ++ ys) = frames u xs ++ frames (u + byteTime * xs.length) ys := by
  induction xs generalizing u with
  | nil => rfl
  | cons x xs ih =>
    have htime : u + byteTime + byteTime * xs.length = u + byteTime * (xs.length + 1) := by
      unfold byteTime; omega
    rw [List.cons_append, frames, ih, frames, List.cons_append, htime, List.length_cons]

theorem frames_concat (u : Nat) (bs : List UInt8) (b : UInt8) :
    frames u (bs ++ [b]) = frames u bs ++ [(u + byteTime * bs.length + byteTime, b)] :=
  frames_append u bs [b]

/-- A program moves on by itself and sends `out` on the way. -/
inductive Moves (h : Nat) (act : σ → Action σ) : Port σ → List (Nat × UInt8) → Port σ → Prop
  | refl (p : Port σ) : Moves h act p [] p
  | head {p q r : Port σ} {out rest : List (Nat × UInt8)}
      (hmove : p.move h act = some (q, out)) (hrest : Moves h act q rest r) :
      Moves h act p (out ++ rest) r

theorem Moves.single {out : List (Nat × UInt8)} (hmove : p.move h act = some (q, out)) :
    Moves h act p out q := by
  have hone : Moves h act p (out ++ []) q := .head hmove (.refl q)
  rwa [List.append_nil] at hone

theorem Moves.trans {out out' : List (Nat × UInt8)} (hpq : Moves h act p out q)
    (hqr : Moves h act q out' r) : Moves h act p (out ++ out') r := by
  induction hpq with
  | refl p => exact hqr
  | head hmove _ ih =>
    rw [List.append_assoc]
    exact .head hmove (ih hqr)

/-- One more action, that sends nothing. -/
theorem Moves.silent {out : List (Nat × UInt8)} (hpq : Moves h act p out q)
    (hmove : q.move h act = some (r, [])) : Moves h act p out r := by
  have hmoves := hpq.trans (.single hmove)
  rwa [List.append_nil] at hmoves

/-! ### Single actions -/

variable {s : σ} {c u : Nat} {i : List (Nat × UInt8)} {e : Bool}

theorem move_skip {s' : σ} {next : Nat → σ} (hact : act s = .sleep 0 next) (hnext : next c = s') :
    Port.move h act ⟨s, c, u, i, e⟩ = some (⟨s', c, u, i, e⟩, []) := by
  simp only [Port.move, hact, Nat.add_zero, hnext]

/-- On an idle line a byte is taken at once. -/
theorem move_put {b : UInt8} {s' : σ} {next : Nat → σ} (hact : act s = .put b next)
    (hnext : next c = s') (hidle : u ≤ c) :
    Port.move h act ⟨s, c, u, i, e⟩
      = some (⟨s', c, c + byteTime, i, e⟩, [(c + byteTime, b)]) := by
  have hroom : max c (u - byteTime * h) = c := by omega
  simp only [Port.move, hact, Port.room, Port.afterPut, hroom, hnext]
  rw [Nat.max_eq_left hidle]

theorem move_get {deadline arrival : Nat} {b : UInt8} {s' : σ} {next : Nat → UInt8 → σ}
    {late : Nat → σ} (hact : act s = .get deadline next late) (hnext : next arrival b = s')
    (hclock : c ≤ arrival) (htime : arrival < deadline) :
    Port.move h act ⟨s, c, u, (arrival, b) :: i, e⟩ = some (⟨s', arrival, u, i, e⟩, []) := by
  have ht : max c arrival = arrival := Nat.max_eq_right hclock
  simp only [Port.move, hact, ht, if_pos htime, hnext]

/-- A byte for which there is room too late. -/
theorem move_put_late {deadline : Nat} {b : UInt8} {next late : Nat → σ}
    (hact : act s = .putBefore deadline b next late) (hc : c ≤ deadline)
    (hu : deadline + byteTime * h < u) :
    ∃ q, Port.move h act ⟨s, c, u, i, e⟩ = some (q, []) ∧ q.expired = true := by
  have hroom : ¬Port.room h ⟨s, c, u, i, e⟩ ≤ max c deadline := by
    unfold Port.room
    dsimp only
    omega
  simp only [Port.move, hact, if_neg hroom]
  exact ⟨_, rfl, rfl⟩

theorem move_get_late {deadline arrival : Nat} {b : UInt8} {next : Nat → UInt8 → σ}
    {late : Nat → σ} (hact : act s = .get deadline next late) (htime : deadline ≤ arrival) :
    ∃ q, Port.move h act ⟨s, c, u, (arrival, b) :: i, e⟩ = some (q, []) ∧ q.expired = true := by
  have ht : ¬max c arrival < deadline := by omega
  simp only [Port.move, hact, if_neg ht]
  exact ⟨_, rfl, rfl⟩

theorem move_get_nil {deadline : Nat} {next : Nat → UInt8 → σ} {late : Nat → σ}
    (hact : act s = .get deadline next late) : Port.move h act ⟨s, c, u, [], e⟩ = none := by
  simp only [Port.move, hact]

/-! ### Loops -/

/-- In state `s` the program puts `b` and goes to `s'`, with a deadline not before `d` if
with any. -/
def Puts (act : σ → Action σ) (d : Nat) (s : σ) (b : UInt8) (s' : σ) : Prop :=
  act s = .put b (fun _ => s') ∨
    ∃ deadline late, d ≤ deadline ∧ act s = .putBefore deadline b (fun _ => s') late

theorem Puts.move {d : Nat} {b : UInt8} {s' : σ} (hputs : Puts act d s b s') (hc : c ≤ d)
    (hu : u ≤ d + byteTime * h) :
    Port.move h act ⟨s, c, u, i, e⟩
      = some (⟨s', max c (u - byteTime * h), max c u + byteTime, i, e⟩,
          [(max c u + byteTime, b)]) := by
  -- a byte that is taken early waits behind the others
  have hline : max (max c (u - byteTime * h)) u = max c u := by omega
  rcases hputs with hact | ⟨deadline, late, hd, hact⟩
  · simp only [Port.move, hact, Port.room, Port.afterPut, hline]
  · have hroom : max c (u - byteTime * h) ≤ max c deadline := by omega
    simp only [Port.move, hact, Port.room, Port.afterPut, if_pos hroom, hline]

theorem puts_replicate {st : Nat → σ} {n d : Nat} {b : UInt8}
    (hact : ∀ w, w < n → act (st w) = .put b fun _ => st (w + 1)) (w : Nat) (b' : UInt8)
    (hb : (List.replicate n b)[w]? = some b') : Puts act d (st w) b' (st (w + 1)) := by
  obtain ⟨hw, hb'⟩ := List.getElem?_eq_some_iff.mp hb
  rw [List.length_replicate] at hw
  rw [List.getElem_replicate] at hb'
  -- the byte at `w` is `b`
  rw [← hb']
  exact .inl (hact w hw)

/-- **A loop that writes.** The first `n + 1` bytes of `bs` go out one after the other, as
long as the last of them finds room by `d`. -/
theorem Moves.puts {bs : List UInt8} {st : Nat → σ} {d n : Nat}
    (hputs : ∀ w b, bs[w]? = some b → Puts act d (st w) b (st (w + 1)))
    (hn : n < bs.length) (hc : c ≤ d) (hu : u ≤ d + byteTime * h)
    (hd : max c u + byteTime * n ≤ d + byteTime * h) :
    ∃ c', c ≤ c' ∧ c' ≤ d ∧ c' ≤ max c u + byteTime * (n + 1) ∧
      Moves h act ⟨st 0, c, u, i, e⟩ (frames (max c u) (bs.take (n + 1)))
        ⟨st (n + 1), c', max c u + byteTime * (n + 1), i, e⟩ := by
  induction n with
  | zero =>
    have hb : bs[0]? = some bs[0] := List.getElem?_eq_getElem hn
    have hmove := (hputs 0 _ hb).move (i := i) (e := e) hc hu
    refine ⟨max c (u - byteTime * h), by omega, by omega, by unfold byteTime; omega, ?_⟩
    have htake : bs.take (0 + 1) = [bs[0]] := by
      rw [List.take_add_one, List.take_zero, hb]
      rfl
    rw [htake]
    exact .single hmove
  | succ n ih =>
    have hroom : byteTime * n ≤ byteTime * (n + 1) := Nat.mul_le_mul_left _ (Nat.le_succ n)
    obtain ⟨c', hcc, hcd, hcu, hmoves⟩ := ih (by omega) (by omega)
    have hb : bs[n + 1]? = some bs[n + 1] := List.getElem?_eq_getElem hn
    have hmove := (hputs (n + 1) _ hb).move (i := i) (e := e) hcd hd
    -- the line is busy: the byte goes out right behind the one before
    rw [Nat.max_eq_right hcu] at hmove
    have hnext : max c u + byteTime * (n + 1) + byteTime = max c u + byteTime * (n + 1 + 1) := by
      unfold byteTime; omega
    have htake : bs.take (n + 1 + 1) = bs.take (n + 1) ++ [bs[n + 1]] := by
      rw [List.take_add_one, hb]
      rfl
    have hlen : (bs.take (n + 1)).length = n + 1 := by
      rw [List.length_take]
      omega
    rw [hnext] at hmove
    refine ⟨max c' (max c u + byteTime * (n + 1) - byteTime * h), by omega, by omega, ?_, ?_⟩
    · omega
    · rw [htake, frames_concat, hlen, hnext]
      exact hmoves.trans (.single hmove)

section Reads

variable {st : List UInt8 → σ} {n d a : Nat} {full late : Nat → List UInt8 → σ}
  (rest : List (Nat × UInt8))

/-- **A loop that reads.** Bytes that come in time, one after the other, are read as they
come, while the program wants more than `bs`. -/
theorem Moves.reads (hact : ∀ acc, act (st acc) = .read n d acc st full late)
    (bs acc : List UInt8) (hlen : acc.length + bs.length < n) (hc : c ≤ a)
    (hd : a + byteTime * bs.length < d) :
    ∃ c', c' ≤ a + byteTime * bs.length ∧
      Moves h act ⟨st acc, c, u, frames a bs ++ rest, e⟩ [] ⟨st (acc ++ bs), c', u, rest, e⟩ := by
  induction bs generalizing a acc c with
  | nil => exact ⟨c, by simpa using hc, by simpa [frames] using Moves.refl _⟩
  | cons b bs ih =>
    rw [List.length_cons] at hlen hd
    have htime : a + byteTime + byteTime * bs.length = a + byteTime * (bs.length + 1) := by
      unfold byteTime; omega
    -- with `b` the read is still short of `n`
    have hmore : ¬(acc ++ [b]).length = n := by simp; omega
    have hmove : Port.move h act ⟨st acc, c, u, frames a (b :: bs) ++ rest, e⟩
        = some (⟨st (acc ++ [b]), a + byteTime, u, frames (a + byteTime) bs ++ rest, e⟩, []) :=
      move_get (hact acc) (if_neg hmore) (by omega) (by omega)
    obtain ⟨c', hc', hmoves⟩ := ih (acc ++ [b]) (by simp; omega)
      (Nat.le_refl (a + byteTime)) (by rw [htime]; exact hd)
    refine ⟨c', by rw [List.length_cons]; omega, ?_⟩
    have happ : acc ++ [b] ++ bs = acc ++ b :: bs := by simp
    rw [happ] at hmoves
    exact .head hmove hmoves

/-- A read of `n` bytes whose last byte comes in time is over when that byte is there. -/
theorem Moves.read (hact : ∀ acc, act (st acc) = .read n d acc st full late)
    {bs : List UInt8} (hlen : bs.length = n) (hpos : 0 < n) (hc : c ≤ a)
    (hd : a + byteTime * n < d) :
    Moves h act ⟨st [], c, u, frames a bs ++ rest, e⟩ []
      ⟨full (a + byteTime * n) bs, a + byteTime * n, u, rest, e⟩ := by
  -- all bytes but the last one, and then the last one
  obtain ⟨init, b, rfl⟩ : ∃ init b, bs = init ++ [b] := by
    have hne : bs ≠ [] := by rintro rfl; simp at hlen; omega
    exact ⟨bs.dropLast, bs.getLast hne, (List.dropLast_concat_getLast hne).symm⟩
  have hinit : init.length + 1 = n := by simpa using hlen
  subst hinit
  obtain ⟨c', hc', hmoves⟩ := Moves.reads (h := h) (u := u) (e := e)
    ([(a + byteTime * init.length + byteTime, b)] ++ rest) hact init [] (by simp) hc
    (by unfold byteTime at *; omega)
  have htime : a + byteTime * init.length + byteTime = a + byteTime * (init.length + 1) := by
    unfold byteTime; omega
  have hlast : (init ++ [b]).length = init.length + 1 := by simp
  have hmove : Port.move h act
      ⟨st init, c', u, (a + byteTime * (init.length + 1), b) :: rest, e⟩
        = some (⟨full (a + byteTime * (init.length + 1)) (init ++ [b]),
            a + byteTime * (init.length + 1), u, rest, e⟩, []) :=
    move_get (hact init) (if_pos hlast) (by unfold byteTime at *; omega) hd
  rw [frames_concat, List.append_assoc]
  rw [htime] at hmoves ⊢
  exact hmoves.trans (.single hmove)

end Reads

end Moves

/-! ## Both ends -/

section Both

variable {α β : Type} {h k : Nat} {actL : α → Action α} {actR : β → Action β}
  {l l' : Port α} {r r' : Port β} {a b d : Line α β}

theorem Reaches.trans (hab : Reaches h k actL actR a b) (hbd : Reaches h k actL actR b d) :
    Reaches h k actL actR a d := Relation.ReflTransGen.trans hab hbd

theorem receive_receive (p : Port α) (xs ys : List (Nat × UInt8)) :
    (p.receive xs).receive ys = p.receive (xs ++ ys) := by
  simp only [Port.receive, List.append_assoc]

@[simp] theorem receive_nil (p : Port α) : p.receive [] = p := by
  simp only [Port.receive, List.append_nil]

/-- What the left program does by itself. -/
theorem Reaches.left {out : List (Nat × UInt8)} (hmoves : Moves h actL l out l') :
    Reaches h k actL actR ⟨l, r⟩ ⟨l', r.receive out⟩ := by
  induction hmoves generalizing r with
  | refl p =>
    rw [receive_nil]
    exact .refl
  | head hmove _ ih =>
    rw [← receive_receive]
    refine .head ?_ ih
    simp only [step, hmove]

/-- What the right program does by itself while the left one waits. -/
theorem Reaches.right (hwait : l.move h actL = none) (hmoves : Moves k actR r [] r') :
    Reaches h k actL actR ⟨l, r⟩ ⟨l, r'⟩ := by
  -- induction on the moves, none of which sends
  generalize hout : ([] : List (Nat × UInt8)) = out at hmoves
  induction hmoves with
  | refl p => exact .refl
  | head hmove _ ih =>
    obtain ⟨rfl, rfl⟩ := List.append_eq_nil_iff.mp hout.symm
    refine .head ?_ (ih rfl)
    simp only [step, hwait, hmove, receive_nil]

theorem Reaches.answer {out : List (Nat × UInt8)} (hwait : l.move h actL = none)
    (hmove : r.move k actR = some (r', out)) :
    Reaches h k actL actR ⟨l, r⟩ ⟨l.receive out, r'⟩ := by
  apply Relation.ReflTransGen.single
  simp only [step, hwait, hmove]

/-- **One exchange.** The left program sends and waits; the right one reads what was sent and
answers. -/
theorem Reaches.exchange {r'' : Port β} {out reply : List (Nat × UInt8)}
    (hsend : Moves h actL l out l') (hwait : l'.move h actL = none)
    (hread : Moves k actR (r.receive out) [] r') (hanswer : r'.move k actR = some (r'', reply)) :
    Reaches h k actL actR ⟨l, r⟩ ⟨l'.receive reply, r''⟩ :=
  ((Reaches.left hsend).trans (.right hwait hread)).trans (.answer hwait hanswer)

theorem step_eq_none (hl : actL l.state = .returned) (hr : actR r.state = .returned) :
    step h k actL actR ⟨l, r⟩ = none := by
  simp only [step, Port.move, Port.waits, hl, hr]

/-! ### A deadline that has passed -/

/-- A deadline has passed at one of the ends. -/
def Line.Expired (l : Line α β) : Prop := l.left.expired = true ∨ l.right.expired = true

theorem Port.expired_move {out : List (Nat × UInt8)} (hmove : l.move h actL = some (l', out))
    (hl : l.expired = true) : l'.expired = true := by
  unfold Port.move at hmove
  split at hmove
  · cases hmove
  · cases hmove; exact hl
  · cases hmove; exact hl
  · dsimp only at hmove
    split at hmove <;> cases hmove
    · exact hl
    · rfl
  · split at hmove
    · cases hmove
    · dsimp only at hmove
      split at hmove <;> cases hmove
      · exact hl
      · rfl

theorem Port.expired_waits {deadline : Nat} (hwaits : l.waits actL = some (deadline, l')) :
    l'.expired = true := by
  unfold Port.waits at hwaits
  split at hwaits
  · cases hwaits; rfl
  · cases hwaits

theorem Line.Expired.step (ha : a.Expired) (hstep : step h k actL actR a = some b) :
    b.Expired := by
  unfold SerialLine.step at hstep
  split at hstep
  · next left out hmove =>
    cases hstep
    exact ha.imp (Port.expired_move hmove) id
  · split at hstep
    · next right out hmove =>
      cases hstep
      exact ha.imp id (Port.expired_move hmove)
    · split at hstep
      · cases hstep
      · next deadline left hl hr =>
        cases hstep
        exact .inl (Port.expired_waits hl)
      · next deadline right hl hr =>
        cases hstep
        exact .inr (Port.expired_waits hr)
      · next dl left dr right hl hr =>
        cases hstep
        split
        · exact .inl (Port.expired_waits hl)
        · exact .inr (Port.expired_waits hr)

theorem Line.Expired.reaches (ha : a.Expired) (hreach : Reaches h k actL actR a b) :
    b.Expired := by
  induction hreach with
  | refl => exact ha
  | tail _ hstep ih => exact ih.step hstep

/-- Where a deadline passes, the programs do not complete: what a line comes to is
determined. -/
theorem not_completes {good : α → β → Prop} (hreach : Reaches h k actL actR a b)
    (hb : b.Expired) : ¬Completes h k actL actR good a := by
  rintro ⟨d, had, hend, _, hleft, hright⟩
  -- one of the two runs is the other's beginning, and the second one has come to its end
  have hbd : Reaches h k actL actR b d := by
    rcases Relation.ReflTransGen.total_of_right_unique
      (fun _ _ _ hx hy => Option.some.inj (hx.symm.trans hy)) hreach had with hbd | hdb
    · exact hbd
    · rcases hdb.cases_head with rfl | ⟨x, hx, _⟩
      · exact .refl
      · rw [hend] at hx
        cases hx
  rcases hb.reaches hbd with hd | hd
  · rw [hleft] at hd; cases hd
  · rw [hright] at hd; cases hd

end Both

/-! ## A line that is slow and loses bytes

Where nothing is known of the line, a byte that has been sent is in a list until it is taken,
and time is what the moves of the two programs say it is. -/

/-- A program that runs against the clock, and when it last moved. -/
structure Party (σ : Type) where
  state : σ
  since : Nat

/-- How a program moves: by itself, because a deadline has passed, or with a byte. -/
inductive Move where
  | proceed | expire | byte
  deriving DecidableEq, Repr

/-- A move at the time `now`, with what is left of the inbox and what is sent. -/
def Party.move {σ : Type} (act : σ → Action σ) (p : Party σ) (now : Nat) (inbox : List UInt8) :
    Move → Option (Party σ × List UInt8 × List UInt8)
  | .proceed =>
    match act p.state with
    | .sleep ticks next =>
      if p.since + ticks ≤ now then some (⟨next now, now⟩, inbox, []) else none
    | .put b next => some (⟨next now, now⟩, inbox, [b])
    | .putBefore _ b next _ => some (⟨next now, now⟩, inbox, [b])
    | _ => none
  | .expire =>
    match act p.state with
    | .putBefore deadline _ _ late =>
      if deadline ≤ now then some (⟨late now, now⟩, inbox, []) else none
    | .get deadline _ late =>
      if deadline ≤ now then some (⟨late now, now⟩, inbox, []) else none
    | _ => none
  | .byte =>
    match act p.state, inbox with
    | .get deadline next _, b :: rest =>
      if now < deadline then some (⟨next now b, now⟩, rest, []) else none
    | _, _ => none

section Party

variable {σ : Type} {act : σ → Action σ} {p q : Party σ} {now : Nat}
  {inbox rest out : List UInt8} {m : Move}

/-! What a program does, by its action. Only one that waits for a byte takes one. -/

theorem Party.move_of_put {b : UInt8} {next : Nat → σ} (hact : act p.state = .put b next)
    (hmove : p.move act now inbox m = some (q, rest, out)) :
    m = .proceed ∧ q.state = next now ∧ rest = inbox ∧ out = [b] := by
  cases m <;> simp only [Party.move, hact] at hmove <;> cases hmove
  exact ⟨rfl, rfl, rfl, rfl⟩

theorem Party.move_of_sleep {ticks : Nat} {next : Nat → σ} (hact : act p.state = .sleep ticks next)
    (hmove : p.move act now inbox m = some (q, rest, out)) :
    q.state = next now ∧ rest = inbox ∧ out = [] := by
  cases m <;> simp only [Party.move, hact] at hmove
  · split at hmove <;> cases hmove
    exact ⟨rfl, rfl, rfl⟩
  · cases hmove
  · cases hmove

theorem Party.move_of_putBefore {deadline : Nat} {b : UInt8} {next late : Nat → σ}
    (hact : act p.state = .putBefore deadline b next late)
    (hmove : p.move act now inbox m = some (q, rest, out)) :
    rest = inbox ∧ (q.state = next now ∧ out = [b] ∨ q.state = late now ∧ out = []) := by
  cases m <;> simp only [Party.move, hact] at hmove
  · cases hmove
    exact ⟨rfl, .inl ⟨rfl, rfl⟩⟩
  · split at hmove <;> cases hmove
    exact ⟨rfl, .inr ⟨rfl, rfl⟩⟩
  · cases hmove

/-- A program that waits for a byte takes the first one, or its deadline passes. -/
theorem Party.move_of_get {deadline : Nat} {next : Nat → UInt8 → σ} {late : Nat → σ}
    (hact : act p.state = .get deadline next late)
    (hmove : p.move act now inbox m = some (q, rest, out)) :
    out = [] ∧ (q.state = late now ∧ rest = inbox ∨
      ∃ b, q.state = next now b ∧ inbox = b :: rest) := by
  cases m with
  | proceed =>
    simp only [Party.move, hact] at hmove
    cases hmove
  | expire =>
    simp only [Party.move, hact] at hmove
    split at hmove <;> cases hmove
    exact ⟨rfl, .inl ⟨rfl, rfl⟩⟩
  | byte =>
    cases inbox with
    | nil =>
      simp only [Party.move, hact] at hmove
      cases hmove
    | cons b bytes =>
      simp only [Party.move, hact] at hmove
      split at hmove <;> cases hmove
      exact ⟨rfl, .inr ⟨b, rfl, rfl⟩⟩

theorem Party.move_of_returned (hact : act p.state = .returned) :
    p.move act now inbox m = none := by
  cases m <;> simp only [Party.move, hact]

end Party


/-! ## What a program does, whatever is at the other end -/

/-- What an action comes to when it is over at the time `t`: the bytes it has taken, the bytes it
has sent, and where it leads. -/
inductive Action.Becomes {σ : Type} :
    Action σ → Nat → List UInt8 → List UInt8 → σ → Prop where
  | sleep {ticks : Nat} {next : Nat → σ} (t : Nat) :
      Becomes (.sleep ticks next) t [] [] (next t)
  | put {b : UInt8} {next : Nat → σ} (t : Nat) : Becomes (.put b next) t [] [b] (next t)
  | putBefore {deadline : Nat} {b : UInt8} {next late : Nat → σ} (t : Nat) :
      Becomes (.putBefore deadline b next late) t [] [b] (next t)
  | noRoom {deadline : Nat} {b : UInt8} {next late : Nat → σ} {t : Nat} (h : deadline ≤ t) :
      Becomes (.putBefore deadline b next late) t [] [] (late t)
  | get {deadline : Nat} {next : Nat → UInt8 → σ} {late : Nat → σ} {t : Nat} (b : UInt8)
      (h : t < deadline) : Becomes (.get deadline next late) t [b] [] (next t b)
  | late {deadline : Nat} {next : Nat → UInt8 → σ} {late : Nat → σ} {t : Nat} (h : deadline ≤ t) :
      Becomes (.get deadline next late) t [] [] (late t)

theorem Action.Becomes.of_put {σ : Type} {b : UInt8} {next : Nat → σ} {t : Nat}
    {taken sent : List UInt8} {s : σ} (h : (Action.put b next).Becomes t taken sent s) :
    taken = [] ∧ sent = [b] ∧ s = next t := by
  cases h
  exact ⟨rfl, rfl, rfl⟩

theorem Action.Becomes.of_get {σ : Type} {deadline : Nat} {next : Nat → UInt8 → σ} {late : Nat → σ}
    {t : Nat} {taken sent : List UInt8} {s : σ}
    (h : (Action.get deadline next late).Becomes t taken sent s) :
    (∃ b, t < deadline ∧ taken = [b] ∧ sent = [] ∧ s = next t b) ∨
      (deadline ≤ t ∧ taken = [] ∧ sent = [] ∧ s = late t) := by
  cases h with
  | get b h => exact .inl ⟨b, h, rfl, rfl, rfl⟩
  | late h => exact .inr ⟨h, rfl, rfl, rfl⟩

/-- A run of a program, with the bytes it has taken and sent. -/
inductive Runs {σ : Type} (act : σ → Action σ) :
    σ → List UInt8 → List UInt8 → σ → Prop where
  | refl (s : σ) : Runs act s [] [] s
  | tail {s s' s'' : σ} {taken sent bytes out : List UInt8} {t : Nat}
      (hrun : Runs act s taken sent s') (hstep : (act s').Becomes t bytes out s'') :
      Runs act s (taken ++ bytes) (sent ++ out) s''

section Runs

variable {α β σ : Type} {h k : Nat} {act : σ → Action σ} {actL : α → Action α}
  {actR : β → Action β} {a b : Line α β} {p q : Port σ}

/-- The bytes on their way to an end of the line. -/
def Port.bytes (p : Port σ) : List UInt8 := p.inbox.map Prod.snd

theorem Port.bytes_receive (p : Port σ) (out : List (Nat × UInt8)) :
    (p.receive out).bytes = p.bytes ++ out.map Prod.snd := List.map_append

theorem Port.becomes_move {out : List (Nat × UInt8)} (hmove : p.move h act = some (q, out)) :
    ∃ taken, (act p.state).Becomes q.clock taken (out.map Prod.snd) q.state ∧
      p.bytes = taken ++ q.bytes := by
  unfold Port.move at hmove
  split at hmove
  · cases hmove
  · next ticks next hact =>
    cases hmove
    rw [hact]
    exact ⟨[], .sleep _, rfl⟩
  · next b next hact =>
    cases hmove
    rw [hact]
    exact ⟨[], .put _, rfl⟩
  · next deadline b next late hact =>
    rw [hact]
    dsimp only at hmove
    split at hmove
    · cases hmove
      exact ⟨[], .putBefore _, rfl⟩
    · cases hmove
      exact ⟨[], .noRoom (Nat.le_max_right _ _), rfl⟩
  · next deadline next late hact =>
    rw [hact]
    split at hmove
    · cases hmove
    · next arrival b rest hinbox =>
      dsimp only at hmove
      split at hmove
      · next htime =>
        cases hmove
        refine ⟨[b], .get b htime, ?_⟩
        rw [Port.bytes, hinbox]
        rfl
      · cases hmove
        exact ⟨[], .late (Nat.le_max_right _ _), rfl⟩

theorem Port.becomes_waits {deadline : Nat} (hwaits : p.waits act = some (deadline, q)) :
    (act p.state).Becomes q.clock [] [] q.state ∧ q.bytes = p.bytes := by
  unfold Port.waits at hwaits
  split at hwaits
  · next d next late hact =>
    cases hwaits
    rw [hact]
    exact ⟨.late (Nat.le_max_right _ _), rfl⟩
  · cases hwaits

/-- The two ends have run by themselves; what one has sent, the other one has taken, or it is on its
way. -/
structure Line.RunsTo (actL : α → Action α) (actR : β → Action β) (a b : Line α β)
    (takenL sentL takenR sentR : List UInt8) : Prop where
  left : Runs actL a.left.state takenL sentL b.left.state
  right : Runs actR a.right.state takenR sentR b.right.state
  toLeft : a.left.bytes ++ sentR = takenL ++ b.left.bytes
  toRight : a.right.bytes ++ sentL = takenR ++ b.right.bytes

/-- A deadline of the left end passes. -/
theorem Line.RunsTo.waitsLeft {takenL sentL takenR sentR : List UInt8} {deadline : Nat}
    {left : Port α} (hab : Line.RunsTo actL actR a b takenL sentL takenR sentR)
    (hwaits : b.left.waits actL = some (deadline, left)) :
    Line.RunsTo actL actR a ⟨left, b.right⟩ takenL sentL takenR sentR := by
  obtain ⟨hbecomes, hbytes⟩ := Port.becomes_waits hwaits
  have hleft := hab.left.tail hbecomes
  rw [List.append_nil, List.append_nil] at hleft
  exact ⟨hleft, hab.right, by rw [hbytes]; exact hab.toLeft, hab.toRight⟩

/-- A deadline of the right end passes. -/
theorem Line.RunsTo.waitsRight {takenL sentL takenR sentR : List UInt8} {deadline : Nat}
    {right : Port β} (hab : Line.RunsTo actL actR a b takenL sentL takenR sentR)
    (hwaits : b.right.waits actR = some (deadline, right)) :
    Line.RunsTo actL actR a ⟨b.left, right⟩ takenL sentL takenR sentR := by
  obtain ⟨hbecomes, hbytes⟩ := Port.becomes_waits hwaits
  have hright := hab.right.tail hbecomes
  rw [List.append_nil, List.append_nil] at hright
  exact ⟨hab.left, hright, hab.toLeft, by rw [hbytes]; exact hab.toRight⟩

/-- **A run of the line**, seen from its ends. Induction on the run; a step is one of one end. -/
theorem Reaches.runs (hreach : Reaches h k actL actR a b) :
    ∃ takenL sentL takenR sentR, Line.RunsTo actL actR a b takenL sentL takenR sentR := by
  induction hreach with
  | refl => exact ⟨[], [], [], [], .refl _, .refl _, List.append_nil _, List.append_nil _⟩
  | @tail b d _ hstep ih =>
    obtain ⟨takenL, sentL, takenR, sentR, hab⟩ := ih
    unfold SerialLine.step at hstep
    split at hstep
    · next left out hmove =>
      cases hstep
      obtain ⟨taken, hbecomes, hbytes⟩ := Port.becomes_move hmove
      refine ⟨takenL ++ taken, sentL ++ out.map Prod.snd, takenR, sentR,
        .tail hab.left hbecomes, hab.right, ?_, ?_⟩
      · rw [hab.toLeft, hbytes, List.append_assoc]
      · rw [Port.bytes_receive, ← List.append_assoc, hab.toRight, List.append_assoc]
    · split at hstep
      · next right out hmove =>
        cases hstep
        obtain ⟨taken, hbecomes, hbytes⟩ := Port.becomes_move hmove
        refine ⟨takenL, sentL, takenR ++ taken, sentR ++ out.map Prod.snd, hab.left,
          .tail hab.right hbecomes, ?_, ?_⟩
        · rw [Port.bytes_receive, ← List.append_assoc, hab.toLeft, List.append_assoc]
        · rw [hab.toRight, hbytes, List.append_assoc]
      · split at hstep
        · cases hstep
        · next deadline left hl hr =>
          cases hstep
          exact ⟨_, _, _, _, hab.waitsLeft hl⟩
        · next deadline right hl hr =>
          cases hstep
          exact ⟨_, _, _, _, hab.waitsRight hr⟩
        · next dl left dr right hl hr =>
          cases hstep
          split
          · exact ⟨_, _, _, _, hab.waitsLeft hl⟩
          · exact ⟨_, _, _, _, hab.waitsRight hr⟩

end Runs

end SerialLine
