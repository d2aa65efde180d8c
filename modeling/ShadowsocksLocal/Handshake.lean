import ShadowsocksLocal.Structure

/-! Stages 0 and 1 of `server_recv_cb`, the SOCKS5 side. Stage 0 answers `05 00` to whatever
one `recv` returned, does not look at the send, and drops every byte after the greeting.
Stage 1 allocates `ss_addr_to_send` and never frees it, and in the direct branch writes
`remote->direct` before it checks `connect_to_remote` for NULL. -/
namespace Shadowsocks.Local

variable {σ : Type} (cipher : Cipher σ) (cfg : Config) {s : State σ} {p : Ptr} {io : Io} {sv : Server σ}
  {b : Buf} {bytes : List Byte}

def plainCfg : Config := ⟨0, 60, 1, false, false, false⟩

/-- With no remote yet, a nonempty `recv` is stored at the start of the server's buffer and the
loop runs two passes over it. -/
theorem serverRecvCb_fresh (hp : s.servers p = some sv) (alone : sv.remote = none) (hb : sv.buf = some b)
    (fits : bufSize ≤ b.cap) (got : io.recv = .data bytes) (nonempty : bytes ≠ []) :
    let chunk := bytes.take bufSize
    serverRecvCb cipher cfg p io s = serverRecvLoop cipher cfg p io 2 ⟨none, none, 0, chunk.length⟩
      ((s.setServer p { sv with buf := some (b.write 0 chunk) }).emit (.recv sv.fd chunk)) := by
  have fit : 0 + (bytes.take bufSize).length ≤ b.cap := by simp; omega
  have some : bytes.take bufSize ≠ [] := by simp [nonempty, bufSize]
  simp [serverRecvCb, State.server?_of hp, alone, got, some, bufferOf, hb, deref, Buf.store_ok fit, setBuffer]

/-- A pass at stage 5 relays the window upstream and returns. -/
theorem serverRecvLoop_stage5 {fuel : Nat} {l : Locals} (hp : s.servers p = some sv) (stage5 : sv.stage = 5) :
    serverRecvLoop cipher cfg p io (fuel + 1) l s = relayUp cipher p io l.remote l.r s := by
  simp [serverRecvLoop, State.server?_of hp, stage5]

section Fresh

variable (hp : s.servers p = some sv) (alone : sv.remote = none) (hb : sv.buf = some b) (fits : bufSize ≤ b.cap)
  (got : io.recv = .data bytes) (nonempty : bytes ≠ [])
include hp alone hb fits got nonempty

/-- At stage 0 the callback stores the chunk, answers `05 00` whatever `send` does with it, and
moves to stage 1: nothing after the greeting is parsed. -/
theorem serverRecvCb_stage0 (stage0 : sv.stage = 0) :
    let chunk := bytes.take bufSize
    let sv' := { sv with buf := some (b.write 0 chunk) }
    serverRecvCb cipher cfg p io s =
      .ok ((((s.setServer p sv').emit (.recv sv.fd chunk)).sendBytes sv.fd .methodSelect [5, 0] io.reply).2.setServer
        p { sv' with stage := 1 }) := by
  rw [serverRecvCb_fresh cipher cfg hp alone hb fits got nonempty]
  simp [serverRecvLoop, stage0, greet, State.server?]

/-- At stage 1 the stored bytes are a request: the first pass runs `request`, and the loop goes
round once more only when the request does. -/
theorem serverRecvCb_stage1 (stage1 : sv.stage = 1) :
    let chunk := bytes.take bufSize
    serverRecvCb cipher cfg p io s =
      request cfg p io ⟨none, none, 0, chunk.length⟩
          ((s.setServer p { sv with buf := some (b.write 0 chunk) }).emit (.recv sv.fd chunk)) >>= fun
        | .done t => pure t
        | .again l t => serverRecvLoop cipher cfg p io 1 l t := by
  rw [serverRecvCb_fresh cipher cfg hp alone hb fits got nonempty]
  simp only [serverRecvLoop, State.server?, stage1, State.emit_servers, State.setServer_servers,
    Function.update_same, ok_bind, Nat.succ_ne_self, if_false]
  rfl

/-- A request pass that goes round leaves the session at stage 5, and the second pass relays the
first window. -/
theorem serverRecvCb_relays (stage1 : sv.stage = 1) {l : Locals} {t : State σ} {sv₅ : Server σ}
    (goes : request cfg p io ⟨none, none, 0, (bytes.take bufSize).length⟩
      ((s.setServer p { sv with buf := some (b.write 0 (bytes.take bufSize)) }).emit
        (.recv sv.fd (bytes.take bufSize))) = .ok (.again l t))
    (hp₅ : t.servers p = some sv₅) (stage5 : sv₅.stage = 5) :
    serverRecvCb cipher cfg p io s = relayUp cipher p io l.remote l.r t := by
  rw [serverRecvCb_stage1 cipher cfg hp alone hb fits got nonempty stage1]
  exact (congrArg (· >>= _) goes).trans (serverRecvLoop_stage5 cipher cfg hp₅ stage5)

end Fresh

/-- Command byte 1 is a CONNECT: the request goes to the CONNECT branch, and on to the reply
unless the session ended there. -/
theorem request_connect {l : Locals} (hp : s.servers p = some sv) (hb : bufferOf s p l.bufOwner = .ok b)
    (connect : b.readByte (l.off + 1) = .ok 1) :
    request cfg p io l s = connectRequest cfg p io l b s >>= fun
      | (none, t) => pure (.done t)
      | (some l, t) => reply p io false [] l t := by
  rw [request, State.server?_of hp, ok_bind, hb, ok_bind, connect, ok_bind]
  exact (if_neg (by simp)).trans (if_neg (by decide))

/-- The reply to a CONNECT, sent whole: it is stored at the start of the server's buffer and
written to the client, and the loop goes round. -/
theorem reply_again {l : Locals} {sb : Buf} {k : Nat} (hp : s.servers p = some sv) (hb : sv.buf = some sb)
    (room : 10 ≤ sb.cap) (sent : io.reply = .accept k) (whole : 10 ≤ k) :
    let sb' := sb.write 0 [5, 0, 0, 1, 0, 0, 0, 0, 0, 0]
    reply p io false [] l s =
      .ok (.again l ((s.setServer p { sv with buf := some sb' }).emit (.send sv.fd .response (sb'.slice 0 10)))) := by
  have fit : 0 + ([5, 0, 0, 1, 0, 0, 0, 0, 0, 0] : List Byte).length ≤ sb.cap := by simpa using room
  have out (t : State σ) : t.send sv.fd .response (sb.write 0 [5, 0, 0, 1, 0, 0, 0, 0, 0, 0]) 0 10 (.accept k) =
      .ok (t.sendBytes sv.fd .response ((sb.write 0 [5, 0, 0, 1, 0, 0, 0, 0, 0, 0]).slice 0 10) (.accept k)) :=
    State.send_ok (Int.le_refl 0) (by decide) (by simpa [Buf.write] using room)
  simp [reply, State.server?_of hp, hb, deref, sockAddr, Buf.store_ok fit, out, sent, min_eq_right whole, sentCount,
    List.take_of_length_le]

/-- The client accepts only the first byte of `05 00`; the session goes on and writes the reply
to the CONNECT, so the client reads `05` then `05 00 00 01 ...`. -/
theorem short_method_reply_goes_unnoticed :
    ∃ s, Reachable Cipher.identity plainCfg s ∧ (s.servers 1).isSome ∧
      s.trace.flatMap (Event.writtenOn 0) = [5, 5, 0, 0, 1, 0, 0, 0, 0, 0, 0] :=
  -- the greeting, with a `send` that takes one byte of `05 00`: stage 1 all the same
  exists_of_run_from Cipher.identity plainCfg
    ((Reachable.step .init (.tick .accept {} rfl)).fire (.serverRecv 1) { recv := .data [5, 1, 0], reply := .accept 1 }
      rfl ((dispatch.eq_1 _ _ _ _ _).trans (serverRecvCb_stage0 _ _ rfl rfl rfl (by decide) rfl (by decide) rfl)))
    [(.fire (.serverRecv 1), { recv := .data [5, 1, 0, 1, 127, 0, 0, 1, 0, 80], reply := .accept 10 })] _ (by decide)

/-- The client stream `05 01 00` then a CONNECT to 127.0.0.1:80 and "GET", read in two `recv`s
or in one: the same bytes arrive, but in one `recv` the request is dropped, so the client gets
no reply and nothing goes upstream. -/
theorem greeting_and_request_in_one_recv :
    ∃ s₁ s₂, Reachable Cipher.identity plainCfg s₁ ∧ Reachable Cipher.identity plainCfg s₂ ∧
      s₁.trace.flatMap (Event.receivedOn 0) = s₂.trace.flatMap (Event.receivedOn 0) ∧
      s₁.trace.flatMap (Event.writtenOn 0) ≠ s₂.trace.flatMap (Event.writtenOn 0) ∧
      s₁.trace.flatMap (Event.plainOn 7) ≠ s₂.trace.flatMap (Event.plainOn 7) := by
  obtain ⟨s₁, reach₁, split⟩ := exists_of_run Cipher.identity plainCfg [(.accept, {}),
    (.fire (.serverRecv 1), { recv := .data [5, 1, 0], reply := .accept 2 }),
    (.fire (.serverRecv 1), { recv := .data [5, 1, 0, 1, 127, 0, 0, 1, 0, 80, 71, 69, 84], reply := .accept 10 })]
    (fun s => s.trace.flatMap (Event.receivedOn 0) = [5, 1, 0, 5, 1, 0, 1, 127, 0, 0, 1, 0, 80, 71, 69, 84] ∧
      s.trace.flatMap (Event.writtenOn 0) = [5, 0, 5, 0, 0, 1, 0, 0, 0, 0, 0, 0] ∧
      s.trace.flatMap (Event.plainOn 7) = [1, 127, 0, 0, 1, 0, 80, 71, 69, 84]) (by decide)
  obtain ⟨s₂, reach₂, joined⟩ := exists_of_run Cipher.identity plainCfg [(.accept, {}),
    (.fire (.serverRecv 1),
      { recv := .data [5, 1, 0, 5, 1, 0, 1, 127, 0, 0, 1, 0, 80, 71, 69, 84], reply := .accept 2 })]
    (fun s => s.trace.flatMap (Event.receivedOn 0) = [5, 1, 0, 5, 1, 0, 1, 127, 0, 0, 1, 0, 80, 71, 69, 84] ∧
      s.trace.flatMap (Event.writtenOn 0) = [5, 0] ∧ s.trace.flatMap (Event.plainOn 7) = []) (by decide)
  refine ⟨s₁, s₂, reach₁, reach₂, split.1.trans joined.1.symm, ?_, ?_⟩
  · rw [split.2.1, joined.2.1]; decide
  · rw [split.2.2, joined.2.2]; decide

/-- In the direct branch a failed `connect_to_remote` is followed through: the callback stops
on the NULL remote. -/
theorem connectRequest_direct_null {l : Locals} {atyp : Byte} {header host service : List Byte}
    (hp : s.servers p = some sv) (kind : b.readByte (l.off + 3) = .ok atyp)
    (parsed : addrHeader b l.off atyp = .ok (some (header, host, service)))
    (direct : (cfg.acl && ((atyp == 1 && io.aclIp) || (atyp == 3 && io.aclDomain))) = true)
    (relays : cfg.remoteNum ≠ 0) (failed : io.resolve (.named host service) = false ∨ io.socket = false) :
    connectRequest cfg p io l b s = .error .nullDeref := by
  have chosen := direct
  simp only [Bool.and_eq_true, Bool.or_eq_true, beq_iff_eq] at chosen
  rcases failed with unresolved | noSocket
  · simp [connectRequest, kind, parsed, State.server?, hp, chosen, connectToRemote, relays, unresolved, deref,
      markDirect, Except.map]
  · cases resolved : io.resolve (.named host service) <;>
      simp [connectRequest, kind, parsed, State.server?, hp, chosen, connectToRemote, relays, resolved, noSocket,
        deref, State.free, markDirect, Except.map]

/-- The same at the callback: at stage 1 with no remote, a CONNECT to an address on the bypass
list whose lookup fails, or whose socket cannot be made, ends in a NULL dereference. -/
theorem serverRecvCb_direct_null {atyp : Byte} {header host service : List Byte} (hp : s.servers p = some sv)
    (alone : sv.remote = none) (hb : sv.buf = some b) (fits : bufSize ≤ b.cap) (got : io.recv = .data bytes)
    (nonempty : bytes ≠ []) (stage1 : sv.stage = 1)
    (connect : (b.write 0 (bytes.take bufSize)).readByte 1 = .ok 1)
    (kind : (b.write 0 (bytes.take bufSize)).readByte 3 = .ok atyp)
    (parsed : addrHeader (b.write 0 (bytes.take bufSize)) 0 atyp = .ok (some (header, host, service)))
    (direct : (cfg.acl && ((atyp == 1 && io.aclIp) || (atyp == 3 && io.aclDomain))) = true)
    (relays : cfg.remoteNum ≠ 0) (failed : io.resolve (.named host service) = false ∨ io.socket = false) :
    serverRecvCb cipher cfg p io s = .error .nullDeref := by
  have stored : ((s.setServer p { sv with buf := some (b.write 0 (bytes.take bufSize)) }).emit
      (.recv sv.fd (bytes.take bufSize))).servers p = some { sv with buf := some (b.write 0 (bytes.take bufSize)) } := by
    simp
  rw [serverRecvCb_stage1 cipher cfg hp alone hb fits got nonempty stage1, request_connect cfg stored (by simp [bufferOf, State.server?]) connect,
    connectRequest_direct_null cfg stored kind parsed direct relays failed]
  rfl

def aclCfg : Config := ⟨0, 60, 1, true, false, false⟩

/-- A CONNECT to an address on the bypass list whose lookup fails makes `server_recv_cb`
follow a NULL remote. -/
theorem acl_direct_unresolved_faults :
    ∃ s, Reachable Cipher.identity aclCfg s ∧
      tick Cipher.identity aclCfg (.fire (.serverRecv 1))
        { recv := .data [5, 1, 0, 1, 127, 0, 0, 1, 0, 80], reply := .accept 10, aclIp := true,
          resolve := fun _ => false } s = .error .nullDeref :=
  ⟨_, (Reachable.step .init (.tick .accept {} rfl)).fire (.serverRecv 1) { recv := .data [5, 1, 0], reply := .accept 2 } rfl
      ((dispatch.eq_1 _ _ _ _ _).trans (serverRecvCb_stage0 _ _ rfl rfl rfl (by decide) rfl (by decide) rfl)),
    (tick_fire _ _ rfl).trans ((dispatch.eq_1 _ _ _ _ _).trans (serverRecvCb_direct_null _ _ rfl rfl rfl (by decide)
      rfl (by decide) rfl rfl rfl rfl rfl (by decide) (.inl rfl)))⟩

/-- A session that connects and then times out leaves no endpoint, yet its `ss_addr_to_send`
block (address 5) is still allocated. -/
theorem scratch_block_outlives_session :
    ∃ s, Reachable Cipher.identity plainCfg s ∧ s.connections = [] ∧ (s.servers 1).isNone ∧
      (s.remotes 8).isNone ∧ s.heap 5 = true :=
  exists_of_run _ _ [(.accept, {}),
    (.fire (.serverRecv 1), { recv := .data [5, 1, 0], reply := .accept 2 }),
    (.fire (.serverRecv 1), { recv := .data [5, 1, 0, 1, 127, 0, 0, 1, 0, 80], reply := .accept 10 }),
    (.fire (.connectTimer 8), {})] _ (by decide)

end Shadowsocks.Local
