import ShadowsocksLocal.Handshake

/-! The first send upstream on the fast-open path of stage 5 (`sendto` with `MSG_FASTOPEN`).
Whatever `sendto` accepts, the remote is marked connected and the window stays recorded as
its residual, with no write watcher started and no timer started; `EINPROGRESS` starts no
timer either; `ENOTCONN` turns fast open off and ends the session. -/
namespace Shadowsocks.Local

variable {σ : Type} {s : State σ} {p q : Ptr} {io : Io} {r : Int} {rm : Remote} {b : Buf}

/-- Where stage 5 takes the fast-open branch: remote `q` not yet connected, fast open on, the
remote relayed (not direct), and the window `[0, r)` inside its buffer `b`. -/
structure FirstSend (s : State σ) (q : Ptr) (rm : Remote) (b : Buf) (r : Int) : Prop where
  remote : s.remotes q = some rm
  fresh : rm.connected = false
  fastOpen : s.fastOpen = true
  relayed : rm.direct = false
  buf : rm.buf = some b
  nonneg : 0 ≤ r
  window : r.toNat ≤ b.cap

theorem FirstSend.send (first : FirstSend s q rm b r) (s' : State σ) (res : Send) :
    s'.send rm.fd .relay b 0 r res = .ok (s'.sendBytes rm.fd .relay (b.slice 0 r.toNat) res) :=
  State.send_ok (Int.le_refl 0) first.nonneg (by simpa using first.window)

def tfoCfg : Config := ⟨0, 60, 1, false, false, true⟩

/-- Accept a client, read its greeting, then a CONNECT to 127.0.0.1:80 with "GET" behind it;
`first` is what the first send upstream returns. The server is record 1 on descriptor 0, the
remote record 8 on descriptor 7. -/
def tfoHandshake (first : Send) : List (Tick × Io) :=
  [(.accept, {}),
   (.fire (.serverRecv 1), { recv := .data [5, 1, 0], reply := .accept 2 }),
   (.fire (.serverRecv 1),
     { recv := .data [5, 1, 0, 1, 127, 0, 0, 1, 0, 80, 71, 69, 84], reply := .accept 10, send := first })]

/-- Stage 5 with a relayed remote: the window is encrypted into the remote's buffer, the chunk is
handed over, and the ciphertext goes to `sendUp`. -/
theorem relayUp_encrypted (cipher : Cipher σ) {sv : Server σ} {wire : List Byte} {ctx : Option (Ptr × σ)}
    (hp : s.servers p = some sv) (hq : s.remotes q = some rm) (relayed : rm.direct = false) (hb : rm.buf = some b)
    (enc : ssEncrypt cipher sv.eCtx (b.slice 0 r.toNat) = some (wire, ctx)) :
    relayUp cipher p io (some q) r s = sendUp p q io (encLength sv.eCtx r wire)
      (((s.setServer p { sv with eCtx := ctx }).setRemote q { rm with buf := some (b.load wire) }).emit
        (.hand rm.fd (b.slice 0 r.toNat) wire)) := by
  simp [relayUp, State.server?_of hp, State.remote?_of hq, relayed, hb, deref, enc]

/-- Stage 5 with a direct remote: the window goes to `sendUp` as it is. -/
theorem relayUp_direct (cipher : Cipher σ) {sv : Server σ} (hp : s.servers p = some sv) (hq : s.remotes q = some rm)
    (direct : rm.direct = true) (hb : rm.buf = some b) :
    relayUp cipher p io (some q) r s =
      sendUp p q io r (s.emit (.hand rm.fd (b.slice 0 r.toNat) (b.slice 0 r.toNat))) := by
  simp [relayUp, State.server?_of hp, State.remote?_of hq, direct, hb]

/-- Before the connect, with fast open off or a direct remote, the first send waits for
`connect`: the window is recorded as the remote's residual, the client's read watcher stops, and
the remote's write watcher and connect timer start; nothing is sent. -/
theorem sendUp_connecting (hq : s.remotes q = some rm) (fresh : rm.connected = false)
    (waits : s.fastOpen = false ∨ rm.direct = true) :
    sendUp p q io r s = .ok ((((s.setRemote q { rm with bufIdx := 0, bufLen := r }).stop (.serverRecv p)).start
      (.remoteSend q)).start (.connectTimer q)) := by
  simp [sendUp, State.remote?_of hq, fresh, waits]

/-- The CONNECT of `tfoHandshake` as one callback, from a reachable state: it ends in the
fast-open `sendto` of the 10-byte first window, from a state where stage 5 takes that branch, with
the client's read watcher started and no watcher of the remote started. -/
theorem tfoHandshake_connect (first : Send) :
    ∃ io s u, io.send = first ∧ Reachable Cipher.identity tfoCfg s ∧ s.active (.serverRecv 1) = true ∧
      dispatch Cipher.identity tfoCfg (.serverRecv 1) io s = sendUp 1 8 io 10 u ∧ (∃ rm b, FirstSend u 8 rm b 10) ∧
      u.active (.serverRecv 1) = true ∧ u.active (.remoteSend 8) = false ∧
      u.active (.connectTimer 8) = false ∧ u.active (.idleTimer 8) = false := by
  -- accept, then the greeting; the CONNECT is then one request pass that goes round and a
  -- stage-5 pass that encrypts the first window
  refine ⟨{ recv := .data [5, 1, 0, 1, 127, 0, 0, 1, 0, 80, 71, 69, 84], reply := .accept 10, send := first }, _, ?u,
    rfl, (Reachable.step .init (.tick .accept {} rfl)).fire (.serverRecv 1) { recv := .data [5, 1, 0], reply := .accept 2 }
      rfl ((dispatch.eq_1 _ _ _ _ _).trans (serverRecvCb_stage0 _ _ rfl rfl rfl (by decide) rfl (by decide) rfl)), rfl,
    ?sent, ?first, ?_, ?_, ?_, ?_⟩
  case sent =>
    refine (dispatch.eq_1 _ _ _ _ _).trans ((serverRecvCb_relays _ _ rfl rfl rfl (by decide) rfl (by decide) rfl
      (by exact rfl) (by exact rfl) (by exact rfl)).trans ?_)
    exact (relayUp_encrypted _ rfl rfl rfl rfl (by exact rfl)).trans (by exact rfl)
  case first => exact ⟨_, _, rfl, rfl, rfl, rfl, rfl, by decide, (by decide : (10 : Int).toNat ≤ bufSize)⟩
  all_goals rfl

/-- A short `sendto` records the residual but starts no write watcher, leaves the client's read
watcher as it was, and stops the connect timer. -/
theorem sendUp_tfo_short {k : Nat} (first : FirstSend s q rm b r) (accepted : io.send = .accept k)
    (short : (k : Int) < r) :
    ∃ s', sendUp p q io r s = .ok s' ∧
      s'.remotes q = some { rm with bufIdx := k, bufLen := r - k, connected := true } ∧
      s'.active (.remoteSend q) = s.active (.remoteSend q) ∧
      s'.active (.serverRecv p) = s.active (.serverRecv p) ∧
      s'.active (.connectTimer q) = false ∧ s'.active (.idleTimer q) = s.active (.idleTimer q) := by
  have least : min k r.toNat = k := by omega
  simp [sendUp, State.remote?_of first.remote, first.fresh, first.fastOpen, first.relayed, first.buf,
    deref, first.send, accepted, least, short]

/-- After a `sendto` that takes 5 of the 10 bytes of the first window, the next chunk from the
client goes out while the other 5 never do: the upstream gets `1 127 0 0 1 65 66`, not a
prefix of `1 127 0 0 1 0 80 71 69 84 65 66`. -/
theorem tfo_short_send_loses_residual :
    ∃ s, Reachable Cipher.identity tfoCfg s ∧ (s.servers 1).isSome ∧
      ¬ s.trace.flatMap (Event.relayedOn 7) <+: s.trace.flatMap (Event.handedOn 7) :=
  exists_of_run _ _ (tfoHandshake (.accept 5) ++
    [(.fire (.serverRecv 1), { recv := .data [65, 66], send := .accept 2 })]) _ (by decide)

theorem sendUp_tfo_whole {k : Nat} (first : FirstSend s q rm b r) (accepted : io.send = .accept k)
    (whole : r ≤ k) :
    ∃ s', sendUp p q io r s = .ok s' ∧
      s'.remotes q = some { rm with bufIdx := 0, bufLen := r, connected := true } ∧
      s'.active (.remoteSend q) = s.active (.remoteSend q) ∧
      s'.active (.serverRecv p) = s.active (.serverRecv p) ∧
      s'.active (.connectTimer q) = false ∧ s'.active (.idleTimer q) = s.active (.idleTimer q) := by
  have least : min k r.toNat = r.toNat := by omega
  simp [sendUp, State.remote?_of first.remote, first.fresh, first.fastOpen, first.relayed, first.buf,
    deref, first.send, accepted, least, Int.toNat_of_nonneg first.nonneg]

/-- `EINPROGRESS`: the window stays as the remote's residual and the session waits for the connect
on the remote's write watcher, with the client's read watcher stopped and the timers as they were. -/
theorem sendUp_tfo_pending (first : FirstSend s q rm b r) (pending : io.send = .error .einprogress) :
    ∃ s', sendUp p q io r s = .ok s' ∧ s'.remotes q = some { rm with bufIdx := 0, bufLen := r } ∧
      s'.active (.remoteSend q) = true ∧ s'.active (.serverRecv p) = false ∧
      s'.active (.connectTimer q) = s.active (.connectTimer q) ∧ s'.active (.idleTimer q) = s.active (.idleTimer q) := by
  simp [sendUp, State.remote?_of first.remote, first.fresh, first.fastOpen, first.relayed, first.buf,
    deref, first.send, pending]

/-- Whatever `sendto` accepts of a nonempty window, the remote is left connected with bytes
recorded as unsent, and its write watcher and the client's read watcher as they were. -/
theorem sendUp_tfo_unflushed {k : Nat} (first : FirstSend s q rm b r) (accepted : io.send = .accept k)
    (nonempty : 0 < r) :
    ∃ s', sendUp p q io r s = .ok s' ∧ s'.active (.remoteSend q) = s.active (.remoteSend q) ∧
      s'.active (.serverRecv p) = s.active (.serverRecv p) ∧
      ∃ rm' ∈ s'.remotes q, rm'.connected = true ∧ 0 < rm'.bufLen := by
  by_cases short : (k : Int) < r
  · obtain ⟨s', ran, hq, unarmed, reading, -⟩ := sendUp_tfo_short (p := p) first accepted short
    exact ⟨s', ran, unarmed, reading, _, hq, rfl, by simp; omega⟩
  · obtain ⟨s', ran, hq, unarmed, reading, -⟩ := sendUp_tfo_whole (p := p) first accepted (by omega)
    exact ⟨s', ran, unarmed, reading, _, hq, rfl, nonempty⟩

/-- After a short `sendto` the connected remote has 5 bytes recorded as unsent, while its write
watcher is stopped and the client's read watcher is started. -/
theorem tfo_residual_without_writer :
    ∃ s, Reachable Cipher.identity tfoCfg s ∧ s.active (.serverRecv 1) = true ∧
      s.active (.remoteSend 8) = false ∧ ∃ rm ∈ s.remotes 8, rm.connected = true ∧ 0 < rm.bufLen := by
  obtain ⟨io, s, u, accepted, reach, active, sent, ⟨rm, b, first⟩, reading, unarmed, -⟩ :=
    tfoHandshake_connect (.accept 5)
  obtain ⟨s', ran, unarmed', reading', residual⟩ := sendUp_tfo_unflushed (p := 1) first accepted (by decide)
  exact ⟨s', reach.fire _ _ active (sent.trans ran), reading'.trans reading, unarmed'.trans unarmed, residual⟩

/-- On every outcome of `sendto` that keeps the session, no timer of the remote is started. -/
theorem sendUp_tfo_starts_no_timer (first : FirstSend s q rm b r)
    (kept : (∃ k, io.send = .accept k) ∨ io.send = .error .einprogress) :
    ∃ s', sendUp p q io r s = .ok s' ∧ (s'.remotes q).isSome ∧
      (s'.active (.connectTimer q) = true → s.active (.connectTimer q) = true) ∧
      s'.active (.idleTimer q) = s.active (.idleTimer q) := by
  rcases kept with ⟨k, accepted⟩ | pending
  · by_cases short : (k : Int) < r
    · obtain ⟨s', ran, hq, -, -, stopped, idle⟩ := sendUp_tfo_short (p := p) first accepted short
      exact ⟨s', ran, by simp [hq], by simp [stopped], idle⟩
    · obtain ⟨s', ran, hq, -, -, stopped, idle⟩ := sendUp_tfo_whole (p := p) first accepted (by omega)
      exact ⟨s', ran, by simp [hq], by simp [stopped], idle⟩
  · obtain ⟨s', ran, hq, -, -, timer, idle⟩ := sendUp_tfo_pending (p := p) first pending
    exact ⟨s', ran, by simp [hq], timer ▸ id, idle⟩

/-- When `sendto` answers `EINPROGRESS` the session waits for the connect with neither timer
of its remote started. -/
theorem tfo_pending_connect_has_no_timer :
    ∃ s, Reachable Cipher.identity tfoCfg s ∧ (s.remotes 8).isSome ∧ s.active (.remoteSend 8) = true ∧
      s.active (.connectTimer 8) = false ∧ s.active (.idleTimer 8) = false := by
  obtain ⟨io, s, u, pending, reach, active, sent, ⟨rm, b, first⟩, -, -, timer, idle⟩ :=
    tfoHandshake_connect (.error .einprogress)
  obtain ⟨s', ran, kept, timer', idle'⟩ := sendUp_tfo_starts_no_timer (p := 1) first (.inr pending)
  obtain ⟨_, ran', -, writer, -⟩ := sendUp_tfo_pending (p := 1) first pending
  cases ran'.symm.trans ran
  exact ⟨s', reach.fire _ _ active (sent.trans ran), kept, writer,
    Bool.eq_false_iff.2 fun h => by simpa [timer] using timer' h, idle'.trans idle⟩

end Shadowsocks.Local
