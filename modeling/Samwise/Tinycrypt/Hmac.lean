import Samwise.Tinycrypt.Sha256

/-!
# Samwise — HMAC, as tinycrypt computes it

`hmac.c` of tinycrypt over `Tinycrypt.Sha256`, with the same checks. `key` of the struct holds the
two padded keys, one behind the other; a key longer than a block is hashed into the middle of `key`
and read from there while `rekey` writes around it.
-/

namespace Samwise.Tinycrypt

open Buffer CountedLoop

/-- `tc_hmac_state_struct`. `key` has 128 bytes. -/
structure TcHmacState where
  hashState : TcSha256State
  key : List UInt8

/-- The struct as `_set` leaves it. -/
def TcHmacState.zero : TcHmacState := ⟨.zero, List.replicate 128 0⟩

/-- The body of the first loop of `rekey`. `newKey` reads through a pointer, which may point into
`key`. -/
def rekeyFirst (newKey : List UInt8 → Nat → Option UInt8) (key : List UInt8) (i : Nat) :
    Option (List UInt8) := do
  let key ← store key i (0x36 ^^^ (← newKey key i))
  store key (i + 64) (0x5c ^^^ (← newKey key i))

/-- The body of the second loop of `rekey`. -/
def rekeyLater (key : List UInt8) (i : Nat) : Option (List UInt8) := do
  let key ← store key i 0x36
  store key (i + 64) 0x5c

/-- `rekey`. -/
def rekey (key : List UInt8) (newKey : List UInt8 → Nat → Option UInt8) (keySize : Nat) :
    Option (List UInt8) := do
  let key ← loop (rekeyFirst newKey) 0 keySize key
  loop rekeyLater keySize (64 - keySize) key

/-- `tc_hmac_set_key`: whether it succeeds, and `ctx` afterwards. `dummyKey` is not initialised, and
of `dummy_state` nothing is read. -/
def tcHmacSetKey (ctx : TcHmacState) (key : List UInt8) (dummyKey : Vector UInt8 64) :
    Option (Bool × TcHmacState) :=
  if key.length = 0 then some (false, ctx)
  else if key.length ≤ 64 then do
    let dummy ← tcSha256Update tcSha256Init (← slice dummyKey.toList 0 key.length)
    let (digest, _) ← tcSha256Final dummy
    let _ ← storeAll TcHmacState.zero.key 32 digest
    let newKey ← rekey ctx.key (fun _ i => load key i) key.length
    return (true, { ctx with key := newKey })
  else do
    let hashState ← tcSha256Update tcSha256Init key
    let (digest, hashState) ← tcSha256Final hashState
    let newKey ← storeAll ctx.key 32 digest
    let newKey ← rekey newKey (fun key i => load key (32 + i)) 32
    return (true, ⟨hashState, newKey⟩)

/-- `tc_hmac_init`. -/
def tcHmacInit (ctx : TcHmacState) : Option TcHmacState := do
  let hashState ← tcSha256Update tcSha256Init (← slice ctx.key 0 64)
  return { ctx with hashState }

/-- `tc_hmac_update`. -/
def tcHmacUpdate (ctx : TcHmacState) (data : List UInt8) : Option TcHmacState := do
  let hashState ← tcSha256Update ctx.hashState data
  return { ctx with hashState }

/-- `tc_hmac_final`: whether it succeeds, `tag` and `ctx` afterwards. -/
def tcHmacFinal (tag : List UInt8) (taglen : Nat) (ctx : TcHmacState) :
    Option (Bool × List UInt8 × TcHmacState) :=
  if taglen ≠ 32 then some (false, tag, ctx)
  else do
    let (digest, _) ← tcSha256Final ctx.hashState
    let tag ← storeAll tag 0 digest
    let hashState ← tcSha256Update tcSha256Init (← slice ctx.key 64 64)
    let hashState ← tcSha256Update hashState (← slice tag 0 32)
    let (digest, _) ← tcSha256Final hashState
    let tag ← storeAll tag 0 digest
    return (true, tag, .zero)

/-! ## The key -/

/-- Before the round `i` of either loop of `rekey`: both keys are made of the first `i` bytes, where
the key goes on with zeros. -/
structure Rekeyed (newKey : List UInt8) (i : Nat) (key : List UInt8) : Prop where
  length : key.length = 128
  inner : ∀ j < i, key[j]? = some (0x36 ^^^ newKey.getD j 0)
  outer : ∀ j < i, key[j + 64]? = some (0x5c ^^^ newKey.getD j 0)

/-- A round. -/
theorem Rekeyed.round {newKey : List UInt8} {i : Nat} {key : List UInt8} (h : Rekeyed newKey i key)
    (hi : i < 64) :
    store key i (0x36 ^^^ newKey.getD i 0) = some (key.set i (0x36 ^^^ newKey.getD i 0)) ∧
    store (key.set i (0x36 ^^^ newKey.getD i 0)) (i + 64) (0x5c ^^^ newKey.getD i 0)
      = some ((key.set i (0x36 ^^^ newKey.getD i 0)).set (i + 64) (0x5c ^^^ newKey.getD i 0)) ∧
    Rekeyed newKey (i + 1)
      ((key.set i (0x36 ^^^ newKey.getD i 0)).set (i + 64) (0x5c ^^^ newKey.getD i 0)) := by
  have hlength := h.length
  refine ⟨if_pos (by omega), if_pos (by rw [List.length_set]; omega), ?_, fun j hj => ?_,
    fun j hj => ?_⟩
  · rw [List.length_set, List.length_set, hlength]
  · rw [List.getElem?_set_ne (by omega), List.getElem?_set]
    by_cases hlast : i = j
    · subst hlast
      rw [if_pos rfl, if_pos (by omega)]
    · rw [if_neg hlast]
      exact h.inner j (by omega)
  · rw [List.getElem?_set]
    by_cases hlast : i + 64 = j + 64
    · obtain rfl : i = j := by omega
      rw [if_pos rfl, if_pos (by rw [List.length_set]; omega)]
    · rw [if_neg hlast, List.getElem?_set_ne (by omega)]
      exact h.outer j (by omega)

/-- A pointer at which the writes of `rekey` leave what is still to be read. -/
def Undisturbed (newKey : List UInt8 → Nat → Option UInt8) (keySize : Nat) : Prop :=
  ∀ (key : List UInt8) (i j : Nat) (a : UInt8), i ≤ j ∨ 64 ≤ i → j < keySize →
    newKey (key.set i a) j = newKey key j

/-- `rekey` makes the two keys of HMAC out of a key that fits a block. -/
theorem rekey_eq {key newKey : List UInt8} {read : List UInt8 → Nat → Option UInt8}
    (hkey : key.length = 128) (hsize : newKey.length ≤ 64)
    (hread : ∀ j < newKey.length, read key j = some (newKey.getD j 0))
    (hkeep : Undisturbed read newKey.length) :
    ∃ key', rekey key read newKey.length = some key' ∧ Rekeyed newKey 64 key' := by
  -- up to the size of the key the bytes are read
  obtain ⟨key₁, hfirst, ⟨hkey₁, -⟩⟩ : ∃ key₁, loop (rekeyFirst read) 0 newKey.length key = some key₁
      ∧ Rekeyed newKey (0 + newKey.length) key₁ ∧ _ := loop_invariant
    (fun i key => Rekeyed newKey i key ∧
      ∀ j, i ≤ j → j < newKey.length → read key j = some (newKey.getD j 0))
    (fun i key _ hi ⟨hkey, hread⟩ => by
      obtain ⟨hinner, houter, hnext⟩ := hkey.round (by omega)
      refine ⟨_, ?_, hnext, fun j hj hlt => ?_⟩
      · have hagain : read (key.set i (0x36 ^^^ newKey.getD i 0)) i = some (newKey.getD i 0) := by
          rw [hkeep key i i _ (.inl le_rfl) (by omega)]
          exact hread i le_rfl (by omega)
        rw [rekeyFirst]
        simp only [Option.bind_eq_bind, hread i le_rfl (by omega), Option.bind_some, hinner, hagain,
          houter]
      · rw [hkeep _ (i + 64) j _ (.inr (by omega)) hlt, hkeep _ i j _ (.inl (by omega)) hlt]
        exact hread j (by omega) hlt)
    ⟨⟨hkey, fun j hj => absurd hj (Nat.not_lt_zero j), fun j hj => absurd hj (Nat.not_lt_zero j)⟩,
      fun j _ hlt => hread j hlt⟩
  -- behind it they are zero
  obtain ⟨key₂, hlater, hkey₂⟩ : ∃ key₂,
      loop rekeyLater newKey.length (64 - newKey.length) key₁ = some key₂
      ∧ Rekeyed newKey (newKey.length + (64 - newKey.length)) key₂ := loop_invariant (Rekeyed newKey)
    (fun i key hle hi hkey => by
      obtain ⟨hinner, houter, hnext⟩ := hkey.round (by omega)
      have hzero : newKey.getD i 0 = 0 := by
        rw [List.getD_eq_getElem?_getD, List.getElem?_eq_none hle]
        rfl
      rw [hzero] at hinner houter hnext
      refine ⟨_, ?_, hnext⟩
      rw [rekeyLater]
      simp only [Option.bind_eq_bind]
      have h36 : (0x36 : UInt8) ^^^ 0 = 0x36 := rfl
      have h5c : (0x5c : UInt8) ^^^ 0 = 0x5c := rfl
      rw [h36] at hinner houter ⊢
      rw [h5c] at houter ⊢
      rw [hinner, Option.bind_some, houter])
    (by rwa [Nat.zero_add] at hkey₁)
  refine ⟨key₂, ?_, ?_⟩
  · rw [rekey, hfirst]
    exact hlater
  · rwa [Nat.add_sub_cancel' hsize] at hkey₂

/-- The bytes of a key that is filled up with zeros. -/
theorem getElem?_filled {newKey : List UInt8} (hsize : newKey.length ≤ 64) {j : Nat} (hj : j < 64) :
    (newKey ++ List.replicate (64 - newKey.length) 0)[j]? = some (newKey.getD j 0) := by
  rw [List.getD_eq_getElem?_getD]
  by_cases hlt : j < newKey.length
  · rw [List.getElem?_append_left hlt, List.getElem?_eq_getElem hlt, Option.getD_some]
  · rw [List.getElem?_append_right (by omega), List.getElem?_replicate, if_pos (by omega),
      List.getElem?_eq_none (by omega), Option.getD_none]

/-- The two halves of `key` are the keys of HMAC. -/
theorem Rekeyed.halves {newKey key : List UInt8} (h : Rekeyed newKey 64 key)
    (hsize : newKey.length ≤ 64) :
    slice key 0 64 = some ((newKey ++ List.replicate (64 - newKey.length) 0).map (0x36 ^^^ ·)) ∧
    slice key 64 64 = some ((newKey ++ List.replicate (64 - newKey.length) 0).map (0x5c ^^^ ·)) := by
  have hlength := h.length
  have hfilled : (newKey ++ List.replicate (64 - newKey.length) 0).length = 64 := by
    rw [List.length_append, List.length_replicate]
    omega
  rw [slice_eq_some (by omega), slice_eq_some (by omega)]
  refine ⟨congrArg some (List.ext_getElem? fun j => ?_), congrArg some (List.ext_getElem? fun j => ?_)⟩
  · rw [List.drop_zero, List.getElem?_map, List.getElem?_take]
    by_cases hj : j < 64
    · rw [if_pos hj, h.inner j hj, getElem?_filled hsize hj, Option.map_some]
    · rw [if_neg hj, List.getElem?_eq_none (by omega), Option.map_none]
  · rw [List.getElem?_map, List.getElem?_take, List.getElem?_drop, Nat.add_comm 64 j]
    by_cases hj : j < 64
    · rw [if_pos hj, h.outer j hj, getElem?_filled hsize hj, Option.map_some]
    · rw [if_neg hj, List.getElem?_eq_none (by omega), Option.map_none]

/-- A message in one piece. -/
theorem tcSha256Update_init (data : List UInt8) :
    ∃ s, tcSha256Update tcSha256Init data = some s ∧ Taken data s :=
  tcSha256Init_taken.update data

/-- `tc_hmac_set_key` prepares the key as HMAC does. -/
theorem tcHmacSetKey_eq {ctx : TcHmacState} {key : List UInt8} (dummyKey : Vector UInt8 64)
    (hctx : ctx.key.length = 128) (hkey : key ≠ []) :
    ∃ ctx', tcHmacSetKey ctx key dummyKey = some (true, ctx') ∧
      slice ctx'.key 0 64 = some ((Sha256.blockKey key).map (0x36 ^^^ ·)) ∧
      slice ctx'.key 64 64 = some ((Sha256.blockKey key).map (0x5c ^^^ ·)) := by
  have hpos : key.length ≠ 0 := fun h => hkey (List.length_eq_zero_iff.mp h)
  unfold tcHmacSetKey Sha256.blockKey
  rw [if_neg hpos]
  by_cases hsize : key.length ≤ 64
  · -- the dummy calls stay within their arrays
    have hdummy : slice dummyKey.toList 0 key.length = some ((dummyKey.toList.drop 0).take key.length) :=
      slice_eq_some (by rw [Vector.length_toList]; omega)
    obtain ⟨s, hupdate, hs⟩ := tcSha256Update_init ((dummyKey.toList.drop 0).take key.length)
    have hzero : TcHmacState.zero.key.length = 128 := List.length_replicate
    have hfits : 32 + (Sha256.sha256 ((dummyKey.toList.drop 0).take key.length)).length
        ≤ TcHmacState.zero.key.length := by
      rw [Sha256.length_sha256]
      omega
    have hread : ∀ j < key.length, load key j = some (key.getD j 0) := by
      intro j hj
      rw [load_eq_some hj, List.getD_eq_getElem?_getD, List.getElem?_eq_getElem hj,
        Option.getD_some]
    have hkeep : Undisturbed (fun _ i => load key i) key.length := fun _ _ _ _ _ _ => rfl
    obtain ⟨key', hrekey, hrekeyed⟩ := rekey_eq hctx hsize hread hkeep
    have hshort : ¬64 < key.length := by omega
    refine ⟨{ ctx with key := key' }, ?_, ?_⟩
    · rw [if_pos hsize]
      simp only [Option.bind_eq_bind, hdummy, Option.bind_some, hupdate, hs.final,
        storeAll, if_pos hfits, hrekey, Option.pure_def]
    · rw [if_neg hshort]
      exact hrekeyed.halves hsize
  · -- the digest of the key lies in the middle, where `rekey` reads it
    obtain ⟨s, hupdate, hs⟩ := tcSha256Update_init key
    have hdigest : (Sha256.sha256 key).length = 32 := Sha256.length_sha256 key
    set stored := ctx.key.take 32 ++ (Sha256.sha256 key ++ ctx.key.drop (32 + (Sha256.sha256 key).length))
      with hstored
    have hstore : storeAll ctx.key 32 (Sha256.sha256 key) = some stored := by
      rw [storeAll, if_pos (by omega)]
    have hlength : stored.length = 128 := by
      rw [hstored, List.length_append, List.length_append, List.length_take, List.length_drop]
      omega
    have hread : ∀ j < (Sha256.sha256 key).length,
        load stored (32 + j) = some ((Sha256.sha256 key).getD j 0) := by
      intro j hj
      have hfront : (ctx.key.take 32).length = 32 := by
        rw [List.length_take]
        omega
      rw [load, hstored, List.getElem?_append_right (by omega), hfront, Nat.add_sub_cancel_left,
        List.getElem?_append_left hj, List.getD_eq_getElem?_getD, List.getElem?_eq_getElem hj,
        Option.getD_some]
    have hkeep : Undisturbed (fun key i => load key (32 + i)) (Sha256.sha256 key).length := by
      intro key i j a hij hj
      exact List.getElem?_set_ne (by omega)
    obtain ⟨key', hrekey, hrekeyed⟩ := rekey_eq hlength (by omega) hread hkeep
    rw [hdigest] at hrekey
    refine ⟨⟨.zero, key'⟩, ?_, ?_⟩
    · rw [if_neg hsize]
      simp only [Option.bind_eq_bind, hupdate, Option.bind_some, hs.final, hstore, hrekey,
        Option.pure_def]
    · rw [if_pos (by omega)]
      exact hrekeyed.halves (by omega)

/-! ## The tag -/

/-- The inner hash has taken in the inner key and the message. -/
structure Keyed (key msg : List UInt8) (ctx : TcHmacState) : Prop where
  inner : Taken ((Sha256.blockKey key).map (0x36 ^^^ ·) ++ msg) ctx.hashState
  outer : slice ctx.key 64 64 = some ((Sha256.blockKey key).map (0x5c ^^^ ·))

/-- `tc_hmac_init`. -/
theorem tcHmacInit_keyed {key : List UInt8} {ctx : TcHmacState}
    (hinner : slice ctx.key 0 64 = some ((Sha256.blockKey key).map (0x36 ^^^ ·)))
    (houter : slice ctx.key 64 64 = some ((Sha256.blockKey key).map (0x5c ^^^ ·))) :
    ∃ ctx', tcHmacInit ctx = some ctx' ∧ Keyed key [] ctx' := by
  obtain ⟨s, hupdate, hs⟩ := tcSha256Update_init ((Sha256.blockKey key).map (0x36 ^^^ ·))
  refine ⟨{ ctx with hashState := s }, ?_, ?_, houter⟩
  · rw [tcHmacInit]
    simp only [Option.bind_eq_bind, hinner, Option.bind_some, hupdate, Option.pure_def]
  · rw [List.append_nil]
    exact hs

/-- `tc_hmac_update`. -/
theorem Keyed.update {key msg : List UInt8} {ctx : TcHmacState} (h : Keyed key msg ctx)
    (data : List UInt8) :
    ∃ ctx', tcHmacUpdate ctx data = some ctx' ∧ Keyed key (msg ++ data) ctx' := by
  obtain ⟨s, hupdate, hs⟩ := h.inner.update data
  refine ⟨{ ctx with hashState := s }, ?_, ?_, h.outer⟩
  · rw [tcHmacUpdate, hupdate]
    rfl
  · rwa [List.append_assoc] at hs

/-- `tc_hmac_update`, piece by piece. Induction on the pieces. -/
theorem Keyed.updates {key msg : List UInt8} {ctx : TcHmacState} (h : Keyed key msg ctx)
    (pieces : List (List UInt8)) :
    ∃ ctx', pieces.foldlM tcHmacUpdate ctx = some ctx' ∧ Keyed key (msg ++ pieces.flatten) ctx' := by
  induction pieces generalizing msg ctx with
  | nil =>
    rw [List.flatten_nil, List.append_nil]
    exact ⟨ctx, rfl, h⟩
  | cons piece pieces ih =>
    obtain ⟨ctx₁, hpiece, h₁⟩ := h.update piece
    obtain ⟨ctx', hpieces, h'⟩ := ih h₁
    refine ⟨ctx', ?_, ?_⟩
    · rw [List.foldlM_cons, hpiece]
      exact hpieces
    · rwa [List.flatten_cons, ← List.append_assoc]

/-- `tc_hmac_final`. -/
theorem Keyed.final {key msg tag : List UInt8} {ctx : TcHmacState} (h : Keyed key msg ctx)
    (htag : tag.length = 32) :
    tcHmacFinal tag 32 ctx = some (true, Sha256.hmac key msg, .zero) := by
  have hstore : ∀ (l digest : List UInt8), l.length = 32 → digest.length = 32 →
      storeAll l 0 digest = some digest := by
    intro l digest hl hdigest
    rw [storeAll, if_pos (by omega), List.take_zero, List.nil_append, Nat.zero_add, hdigest, ← hl,
      List.drop_length, List.append_nil]
  obtain ⟨s, houter, hs⟩ := tcSha256Update_init ((Sha256.blockKey key).map (0x5c ^^^ ·))
  obtain ⟨s', hinner, hs'⟩ := hs.update
    (Sha256.sha256 ((Sha256.blockKey key).map (0x36 ^^^ ·) ++ msg))
  have hall : ∀ digest : List UInt8, digest.length = 32 → slice digest 0 32 = some digest := by
    intro digest hdigest
    rw [← hdigest]
    exact slice_all digest
  unfold tcHmacFinal
  rw [if_neg (fun hne => hne rfl)]
  simp only [Option.bind_eq_bind, h.inner.final, Option.bind_some,
    hstore tag _ htag (Sha256.length_sha256 _), h.outer, houter, hall _ (Sha256.length_sha256 _),
    hinner, hs'.final, hstore _ _ (Sha256.length_sha256 _) (Sha256.length_sha256 _), Option.pure_def]
  rfl

/-- **tinycrypt computes HMAC with SHA-256.** For a key of any length but 0 and a message in any
pieces: no access fails, every call succeeds, and the tag is the HMAC of the message. -/
theorem tcHmac_eq_hmac (ctx : TcHmacState) (key : List UInt8) (dummyKey : Vector UInt8 64)
    (pieces : List (List UInt8)) (tag : List UInt8) (hctx : ctx.key.length = 128) (hkey : key ≠ [])
    (htag : tag.length = 32) :
    (do
      let (keyed, ctx) ← tcHmacSetKey ctx key dummyKey
      let ctx ← tcHmacInit ctx
      let ctx ← pieces.foldlM tcHmacUpdate ctx
      let (final, tag, _) ← tcHmacFinal tag 32 ctx
      return (keyed, final, tag)) = some (true, true, Sha256.hmac key pieces.flatten) := by
  obtain ⟨ctx₁, hset, hinner, houter⟩ := tcHmacSetKey_eq dummyKey hctx hkey
  obtain ⟨ctx₂, hinit, hkeyed⟩ := tcHmacInit_keyed hinner houter
  obtain ⟨ctx₃, hupdates, hkeyed'⟩ := hkeyed.updates pieces
  rw [List.nil_append] at hkeyed'
  simp only [Option.bind_eq_bind, hset, Option.bind_some, hinit, hupdates, hkeyed'.final htag,
    Option.pure_def]

/-- "Hi There" in two pieces, under a key of twenty bytes. -/
theorem tcHmac_eq_hmac_hi_there :
    some (true, true, Sha256.hmac (List.replicate 20 0x0b)
        [[0x48, 0x69], [0x20, 0x54, 0x68, 0x65, 0x72, 0x65]].flatten)
      = some (true, true, [
        0xb0, 0x34, 0x4c, 0x61, 0xd8, 0xdb, 0x38, 0x53, 0x5c, 0xa8, 0xaf, 0xce, 0xaf, 0x0b, 0xf1, 0x2b,
        0x88, 0x1d, 0xc2, 0x00, 0xc9, 0x83, 0x3d, 0xa7, 0x26, 0xe9, 0x37, 0x6c, 0x2e, 0x32, 0xcf,
        0xf7]) := by
  have hzero : TcHmacState.zero.key.length = 128 := List.length_replicate
  rw [← tcHmac_eq_hmac .zero (List.replicate 20 0x0b) (Vector.replicate 64 0)
    [[0x48, 0x69], [0x20, 0x54, 0x68, 0x65, 0x72, 0x65]] (List.replicate 32 0) hzero
    (by decide) List.length_replicate]
  decide +kernel

end Samwise.Tinycrypt
