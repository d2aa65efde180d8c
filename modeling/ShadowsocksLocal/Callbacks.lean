import ShadowsocksLocal.Endpoints

/-! The libev callbacks of `local.c`. Each runs to completion on the state, consuming the
system-call outcomes in `Io`; a `Fault` is undefined behaviour of the C code. The
`while (1)` loop of `server_recv_cb` runs under fuel, and running out of it is `diverge`. -/
namespace Shadowsocks.Local

variable {σ : Type}

namespace Buf

def readByte (b : Buf) (i : Nat) : Except Fault Byte :=
  if i < b.cap then .ok (b.data i) else .error .outOfBounds

/-- The `len` bytes at `idx`; a negative length is a huge `size_t`. -/
def read (b : Buf) (idx : Nat) (len : Int) : Except Fault (List Byte) :=
  if len < 0 then .error .badLength
  else if idx + len.toNat ≤ b.cap then .ok (b.slice idx len.toNat) else .error .outOfBounds

/-- `memcpy(b + off, bytes, bytes.length)` inside the block. -/
def store (b : Buf) (off : Nat) (bytes : List Byte) : Except Fault Buf :=
  if off + bytes.length ≤ b.cap then .ok (b.write off bytes) else .error .outOfBounds

theorem read_ok {b : Buf} {idx : Nat} {len : Int} (nonneg : 0 ≤ len) (within : idx + len.toNat ≤ b.cap) :
    b.read idx len = .ok (b.slice idx len.toNat) := by
  simp [read, within, Int.not_lt.2 nonneg]

theorem store_ok {b : Buf} {off : Nat} {bytes : List Byte} (within : off + bytes.length ≤ b.cap) :
    b.store off bytes = .ok (b.write off bytes) := by
  simp [store, within]

theorem readByte_eq_ok {b : Buf} {i : Nat} {x : Byte} (h : b.readByte i = .ok x) : i < b.cap ∧ x = b.data i := by
  unfold readByte at h
  split at h
  · cases h; exact ⟨by assumption, rfl⟩
  · cases h

theorem read_eq_ok {b : Buf} {idx : Nat} {len : Int} {bytes : List Byte} (h : b.read idx len = .ok bytes) :
    0 ≤ len ∧ idx + len.toNat ≤ b.cap ∧ bytes = b.slice idx len.toNat := by
  unfold read at h
  split at h
  · cases h
  · split at h
    · cases h; exact ⟨by omega, by assumption, rfl⟩
    · cases h

theorem store_eq_ok {b b' : Buf} {off : Nat} {bytes : List Byte} :
    b.store off bytes = .ok b' ↔ off + bytes.length ≤ b.cap ∧ b' = b.write off bytes := by
  unfold store
  split <;> simp_all [eq_comm]

theorem store_ptr {b b' : Buf} {off : Nat} {bytes : List Byte} (h : b.store off bytes = .ok b') :
    b'.ptr = b.ptr := by
  unfold store at h
  split at h
  · cases h; rfl
  · cases h

theorem slice_store {b b' : Buf} {off : Nat} {bytes : List Byte} (h : b.store off bytes = .ok b') :
    b'.slice off bytes.length = bytes := by
  unfold store at h
  split at h
  · cases h; exact slice_write b off bytes
  · cases h

end Buf

/-- `sprintf(s, "%d", n)`. -/
def decimal (n : Nat) : List Byte := (Nat.toDigits 10 n).map fun c => c.toNat.toUInt8

/-- `inet_ntop(AF_INET, ...)`: dotted decimal. -/
def ipv4Text (a : List Byte) : List Byte := [46].intercalate (a.map fun x => decimal x.toNat)

/-- `ntohs` of the two port bytes, network order. -/
def port (hi lo : Byte) : Nat := hi.toNat * 256 + lo.toNat

/-- The value `send` returns as the C code compares it: the accepted count, or `-1`. -/
def sentCount : Except Errno Nat → Int
  | .ok k => k
  | .error _ => -1

namespace State

/-- `send(fd, bytes, bytes.length, 0)` from a stack object. -/
def sendBytes (s : State σ) (fd : Fd) (site : Site) (bytes : List Byte) (res : Send) :
    Except Errno Nat × State σ :=
  match res with
  | .accept n =>
    let k := min n bytes.length
    (.ok k, s.emit (.send fd site (bytes.take k)))
  | .error e => (.error e, s)

/-- `send(fd, b + idx, len, 0)`: the window must lie inside the block. -/
def send (s : State σ) (fd : Fd) (site : Site) (b : Buf) (idx len : Int) (res : Send) :
    Except Fault (Except Errno Nat × State σ) := do
  if idx < 0 then throw .outOfBounds
  let window ← b.read idx.toNat len
  pure (s.sendBytes fd site window res)

@[simp] theorem sendBytes_accept (s : State σ) (fd : Fd) (site : Site) (bytes : List Byte) (n : Nat) :
    s.sendBytes fd site bytes (.accept n) =
      (.ok (min n bytes.length), s.emit (.send fd site (bytes.take (min n bytes.length)))) := rfl

@[simp] theorem sendBytes_error (s : State σ) (fd : Fd) (site : Site) (bytes : List Byte) (e : Errno) :
    s.sendBytes fd site bytes (.error e) = (.error e, s) := rfl

@[simp] theorem sendBytes_servers (s : State σ) (fd : Fd) (site : Site) (bytes : List Byte) (res : Send) :
    (s.sendBytes fd site bytes res).2.servers = s.servers := by cases res <;> rfl

@[simp] theorem sendBytes_remotes (s : State σ) (fd : Fd) (site : Site) (bytes : List Byte) (res : Send) :
    (s.sendBytes fd site bytes res).2.remotes = s.remotes := by cases res <;> rfl

@[simp] theorem sendBytes_active (s : State σ) (fd : Fd) (site : Site) (bytes : List Byte) (res : Send) :
    (s.sendBytes fd site bytes res).2.active = s.active := by cases res <;> rfl

theorem send_ok {s : State σ} {fd : Fd} {site : Site} {b : Buf} {idx len : Int} {res : Send}
    (start : 0 ≤ idx) (nonneg : 0 ≤ len) (within : idx.toNat + len.toNat ≤ b.cap) :
    s.send fd site b idx len res = .ok (s.sendBytes fd site (b.slice idx.toNat len.toNat) res) := by
  simp [send, Int.not_lt.2 start, Buf.read_ok nonneg within]

theorem send_eq_ok {s s' : State σ} {fd : Fd} {site : Site} {b : Buf} {idx len : Int} {res : Send}
    {x : Except Errno Nat} (h : s.send fd site b idx len res = .ok (x, s')) :
    0 ≤ idx ∧ 0 ≤ len ∧ idx.toNat + len.toNat ≤ b.cap ∧
      (x, s') = s.sendBytes fd site (b.slice idx.toNat len.toNat) res := by
  by_cases neg : idx < 0
  · simp [send, neg] at h
  by_cases hl : len < 0
  · simp [send, neg, Buf.read, hl] at h
  by_cases hw : idx.toNat + len.toNat ≤ b.cap
  · simp only [send, neg, Buf.read, hl, hw, if_false, if_true] at h
    exact ⟨Int.not_lt.1 neg, Int.not_lt.1 hl, hw, (Except.ok.inj h).symm⟩
  · simp [send, neg, Buf.read, hl, hw] at h

theorem send_error {s s' : State σ} {fd : Fd} {site : Site} {b : Buf} {idx len : Int} {res : Send} {e : Errno}
    (h : s.send fd site b idx len res = .ok (.error e, s')) : s' = s := by
  have eq := (send_eq_ok h).2.2.2
  cases res with
  | accept n => simp at eq
  | error e' => simp only [sendBytes_error, Prod.mk.injEq] at eq; exact eq.2

theorem send_accept {s s' : State σ} {fd : Fd} {site : Site} {b : Buf} {idx len : Int} {res : Send} {k : Nat}
    (h : s.send fd site b idx len res = .ok (.ok k, s')) :
    0 ≤ idx ∧ 0 ≤ len ∧ k ≤ len.toNat ∧
      s' = s.emit (.send fd site ((b.slice idx.toNat len.toNat).take k)) := by
  obtain ⟨start, nonneg, -, eq⟩ := send_eq_ok h
  cases res with
  | accept n =>
    simp only [sendBytes_accept, Prod.mk.injEq, Except.ok.injEq] at eq
    obtain ⟨rfl, rfl⟩ := eq
    exact ⟨start, nonneg, (min_le_right _ _).trans (Buf.length_slice b _ _).le, rfl⟩
  | error e => simp at eq

/-- `ev_timer_again`: a nonzero repeat (re)starts the timer, a zero one stops it. -/
def timerAgain (s : State σ) (w : Watcher) (period : Int) : State σ :=
  if period ≠ 0 then s.start w else s.stop w

@[simp] theorem timerAgain_servers (s : State σ) (w : Watcher) (period : Int) :
    (s.timerAgain w period).servers = s.servers := by unfold timerAgain; split <;> rfl

@[simp] theorem timerAgain_remotes (s : State σ) (w : Watcher) (period : Int) :
    (s.timerAgain w period).remotes = s.remotes := by unfold timerAgain; split <;> rfl

@[simp] theorem timerAgain_trace (s : State σ) (w : Watcher) (period : Int) :
    (s.timerAgain w period).trace = s.trace := by unfold timerAgain; split <;> rfl

theorem timerAgain_active_of_ne {s : State σ} {w w' : Watcher} (period : Int) (ne : w' ≠ w) :
    (s.timerAgain w period).active w' = s.active w' := by
  unfold timerAgain; split <;> simp [Function.update_apply, ne]

end State

section Callbacks

variable (cipher : Cipher σ) (cfg : Config)

/-- `timeout * 60`, the repeat of the idle timer, as a wrapping 32-bit `int` product
(`4294967296` is `2^32`). -/
def idleRepeat : Int := Int.bmod (cfg.timeout * 60) 4294967296

/-- `ss_encrypt(BUF_SIZE, buf, &len, ctx)` on the plaintext; a NULL context is the table method. -/
def ssEncrypt (ctx : Option (Ptr × σ)) (plain : List Byte) :
    Option (List Byte × Option (Ptr × σ)) :=
  match ctx with
  | none => some (plain.map cipher.encTable, none)
  | some (c, st) => (cipher.encrypt st plain).map fun (out, st) => (out, some (c, st))

/-- `ss_decrypt(BUF_SIZE, buf, &len, ctx)`. -/
def ssDecrypt (ctx : Option (Ptr × σ)) (wire : List Byte) :
    Option (List Byte × Option (Ptr × σ)) :=
  match ctx with
  | none => some (wire.map cipher.decTable, none)
  | some (c, st) => (cipher.decrypt st wire).map fun (out, st) => (out, some (c, st))

/-- `r` after `ss_encrypt(BUF_SIZE, buf, &r, ctx)`: a cipher context sets it to the length of
what it wrote; the table method maps the first `r` bytes in place and leaves it. -/
def encLength (ctx : Option (Ptr × σ)) (r : Int) (wire : List Byte) : Int :=
  if ctx.isSome then wire.length else r

theorem ssEncrypt_ctx {ctx ctx' : Option (Ptr × σ)} {plain wire : List Byte}
    (h : ssEncrypt cipher ctx plain = some (wire, ctx')) : ctx'.map Prod.fst = ctx.map Prod.fst := by
  cases ctx with
  | none => simp only [ssEncrypt, Option.some.injEq, Prod.mk.injEq] at h; rw [← h.2]
  | some c =>
    simp only [ssEncrypt, Option.map_eq_some', Prod.mk.injEq] at h
    obtain ⟨_, -, -, rfl⟩ := h
    rfl

theorem ssDecrypt_ctx {ctx ctx' : Option (Ptr × σ)} {wire plain : List Byte}
    (h : ssDecrypt cipher ctx wire = some (plain, ctx')) : ctx'.map Prod.fst = ctx.map Prod.fst := by
  cases ctx with
  | none => simp only [ssDecrypt, Option.some.injEq, Prod.mk.injEq] at h; rw [← h.2]
  | some c =>
    simp only [ssDecrypt, Option.map_eq_some', Prod.mk.injEq] at h
    obtain ⟨_, -, -, rfl⟩ := h
    rfl

theorem encLength_toNat {ctx ctx' : Option (Ptr × σ)} {plain wire : List Byte} {r : Int}
    (h : ssEncrypt cipher ctx plain = some (wire, ctx')) (len : plain.length = r.toNat) :
    (encLength ctx r wire).toNat = wire.length := by
  cases ctx with
  | none =>
    simp only [ssEncrypt, Option.some.injEq, Prod.mk.injEq] at h
    simp [encLength, ← h.1, len]
  | some c => simp [encLength]

/-- The locals of `server_recv_cb` that live across passes of its loop: `remote`, the record
whose buffer `buf` points into (NULL: the server's) with the offset, and `r`. -/
structure Locals where
  remote : Option Ptr
  bufOwner : Option Ptr
  off : Nat
  r : Int

inductive Pass (σ : Type) where
  | done (s : State σ)
  | again (l : Locals) (s : State σ)

/-- The buffer `buf` points into. -/
def bufferOf (s : State σ) (p : Ptr) : Option Ptr → Except Fault Buf
  | none => do deref (← s.server? p).buf
  | some q => do deref (← s.remote? q).buf

/-- The connect, `sendto` and `send` tail of stage 5; `r` bytes of `remote->buf` go up. -/
def sendUp (p q : Ptr) (io : Io) (r : Int) (s : State σ) : Except Fault (State σ) := do
  let rm ← s.remote? q
  if !rm.connected then
    let rm := { rm with bufIdx := 0, bufLen := r }
    let s := s.setRemote q rm
    if !s.fastOpen || rm.direct then
      -- connect(); wait on remote connected event
      pure (((s.stop (.serverRecv p)).start (.remoteSend q)).start (.connectTimer q))
    else
      let b ← deref rm.buf
      match ← s.send rm.fd .relay b 0 r io.send with
      | (.error .einprogress, s) =>
        pure (((s.setRemote q { rm with bufIdx := 0, bufLen := r }).stop (.serverRecv p)).start
          (.remoteSend q))
      | (.error e, s) =>
        let s := if e = .enotconn then { s with fastOpen := false } else s
        s.teardown (some q) (some p)
      | (.ok k, s) =>
        let rm := if (k : Int) < r then { rm with bufLen := r - k, bufIdx := k } else rm
        pure (((s.setRemote q { rm with connected := true }).stop (.connectTimer q)).start
          (.remoteRecv q))
  else
    let b ← deref rm.buf
    match ← s.send rm.fd .relay b 0 r io.send with
    | (.error .eagain, s) =>
      pure (((s.setRemote q { rm with bufIdx := 0, bufLen := r }).stop (.serverRecv p)).start
        (.remoteSend q))
    | (.error _, s) => s.teardown (some q) (some p)
    | (.ok k, s) =>
      if (k : Int) < r then
        pure (((s.setRemote q { rm with bufLen := r - k, bufIdx := k }).stop (.serverRecv p)).start
          (.remoteSend q))
      else pure s

/-- Stage 5 of `server_recv_cb`: the first `r` bytes of `remote->buf` (none when `r` is
negative) are handed upstream, through `ss_encrypt` unless the remote is direct. -/
def relayUp (p : Ptr) (io : Io) (remote : Option Ptr) (r : Int) (s : State σ) :
    Except Fault (State σ) :=
  match remote with
  | none => s.closeAndFreeServer (some p)
  | some q => do
    let sv ← s.server? p
    let rm ← s.remote? q
    if !rm.direct then
      let b ← deref rm.buf
      let plain := b.slice 0 r.toNat
      match ssEncrypt cipher sv.eCtx plain with
      | none =>
        let s ← s.free b.ptr
        (s.setRemote q { rm with buf := none }).teardown (some q) (some p)
      | some (wire, ctx) =>
        let s := (s.setServer p { sv with eCtx := ctx }).setRemote q { rm with buf := some (b.load wire) }
        sendUp p q io (encLength sv.eCtx r wire) (s.emit (.hand rm.fd plain wire))
    else
      let chunk := match rm.buf with
        | some b => b.slice 0 r.toNat
        | none => []
      sendUp p q io r (s.emit (.hand rm.fd chunk chunk))

/-- Stage 0: answer any greeting with `05 00`, without checking the send, and go to stage 1. -/
def greet (p : Ptr) (io : Io) (s : State σ) : Except Fault (State σ) := do
  let sv ← s.server? p
  let (_, s) := s.sendBytes sv.fd .methodSelect [5, 0] io.reply
  pure (s.setServer p { sv with stage := 1 })

/-- `ss_addr_to_send` for address type `atyp` of the request at `buf + off`, with the host
and port text `connect_to_remote` gets; `none` for an unsupported type. The IPv6 text is
only logged. -/
def addrHeader (b : Buf) (off : Nat) (atyp : Byte) :
    Except Fault (Option (List Byte × List Byte × List Byte)) :=
  if atyp = 1 then do
    let a ← b.read (off + 4) 6
    pure (some (1 :: a, ipv4Text (a.take 4), decimal (port (a.getD 4 0) (a.getD 5 0))))
  else if atyp = 3 then do
    let n ← b.readByte (off + 4)
    let a ← b.read (off + 5) (n.toNat + 2)
    pure (some (3 :: n :: a, (a.take n.toNat).takeWhile (· ≠ 0),
      decimal (port (a.getD n.toNat 0) (a.getD (n.toNat + 1) 0))))
  else if atyp = 4 then do
    let a ← b.read (off + 4) 18
    pure (some (4 :: a, [], []))
  else pure none

/-- `remote->direct = 1` on what `connect_to_remote` returned, before the NULL check. -/
def markDirect (direct : Bool) (remote : Option Ptr) : Except Fault Unit :=
  if direct then (deref remote).map fun _ => () else pure ()

/-- `if (r > 0) memcpy(rb + dst, b + off, r)`. -/
def copyPayload (rb : Buf) (dst : Nat) (b : Buf) (off : Nat) (r : Int) : Except Fault Buf :=
  if r > 0 then do rb.store dst (← b.read off r) else pure rb

/-- The first window in `remote->buf`: the address header then the `r` payload bytes at `off`,
or the payload alone when direct. -/
def firstChunk (direct : Bool) (header : List Byte) (b : Buf) (off : Nat) (r : Int) (rb : Buf) :
    Except Fault (Buf × Int) :=
  if !direct then do
    let rb ← rb.store 0 header
    let rb ← copyPayload rb header.length b off r
    pure (rb, r + header.length)
  else do
    let rb ← copyPayload rb 0 b off r
    pure (rb, r)

theorem copyPayload_ptr {rb rb' b : Buf} {dst off : Nat} {r : Int} (h : copyPayload rb dst b off r = .ok rb') :
    rb'.ptr = rb.ptr := by
  unfold copyPayload at h
  split at h
  · obtain ⟨_, _, h⟩ := bind_eq_ok.1 h; exact Buf.store_ptr h
  · cases h; rfl

theorem firstChunk_ptr {direct : Bool} {header : List Byte} {b rb rb' : Buf} {off : Nat} {r r' : Int}
    (h : firstChunk direct header b off r rb = .ok (rb', r')) : rb'.ptr = rb.ptr := by
  unfold firstChunk at h
  split at h
  · obtain ⟨rb₁, h₁, h⟩ := bind_eq_ok.1 h
    obtain ⟨rb₂, h₂, h⟩ := bind_eq_ok.1 h
    cases h
    rw [copyPayload_ptr h₂, Buf.store_ptr h₁]
  · obtain ⟨rb₂, h₂, h⟩ := bind_eq_ok.1 h
    cases h
    exact copyPayload_ptr h₂

/-- The CONNECT branch of stage 1 up to the pairing; `none` when the session is gone. The
`ss_addr_to_send` block is allocated here and never freed. -/
def connectRequest (p : Ptr) (io : Io) (l : Locals) (b : Buf) (s : State σ) :
    Except Fault (Option Locals × State σ) := do
  let (_, s) := s.malloc
  let atyp ← b.readByte (l.off + 3)
  match ← addrHeader b l.off atyp with
  | none => return (none, ← s.teardown l.remote (some p))
  | some (header, host, service) =>
    let sv ← s.server? p
    let s := s.setServer p { sv with stage := 5 }
    let direct := cfg.acl && ((atyp == 1 && io.aclIp) || (atyp == 3 && io.aclDomain))
    let (remote, s) ← connectToRemote cfg s io (if direct then some (host, service) else none)
    markDirect direct remote
    match remote with
    | none => return (none, ← s.closeAndFreeServer (some p))
    | some q =>
      let rm ← s.remote? q
      let rb ← deref rm.buf
      let off := l.off + 3 + header.length
      let (rb, r) ← firstChunk direct header b off (l.r - (3 + header.length)) rb
      let sv ← s.server? p
      let s := (s.setServer p { sv with remote := some q }).setRemote q
        { rm with buf := some rb, direct := direct, server := some p }
      return (some { l with remote := some q, off := off, r := r }, s)

/-- The address half of the reply: `sin_addr` and `sin_port`, six bytes. -/
def sockAddr (a : List Byte) : List Byte := (a ++ List.replicate 6 0).take 6

/-- The reply of stage 1 and what follows it: a short send or UDP ASSOCIATE ends the session,
otherwise the loop goes round with the locals of the CONNECT branch. -/
def reply (p : Ptr) (io : Io) (udp : Bool) (addr : List Byte) (l : Locals) (s : State σ) :
    Except Fault (Pass σ) := do
  let sv ← s.server? p
  let sb ← deref sv.buf
  let sb ← sb.store 0 ([5, 0, 0, 1] ++ sockAddr addr)
  let s := s.setServer p { sv with buf := some sb }
  let (res, s) ← s.send sv.fd .response sb 0 10 io.reply
  if sentCount res < 10 then return .done (← s.teardown l.remote (some p))
  if udp then return .done (← s.teardown l.remote (some p))
  return .again l s

/-- Stage 1: the request at `buf + off`. -/
def request (p : Ptr) (io : Io) (l : Locals) (s : State σ) : Except Fault (Pass σ) := do
  let sv ← s.server? p
  let b ← bufferOf s p l.bufOwner
  let cmd ← b.readByte (l.off + 1)
  if cfg.udprelay && cmd == 3 then
    reply p io true io.sockname l s
  else if cmd != 1 then
    let (_, s) := s.sendBytes sv.fd .response [5, 7, 0, 1] io.reply
    return .done (← s.teardown l.remote (some p))
  else
    match ← connectRequest cfg p io l b s with
    | (none, s) => return .done s
    | (some l, s) => reply p io false [] l s

/-- The `while (1)` loop of `server_recv_cb`, dispatching on `server->stage`. -/
def serverRecvLoop (p : Ptr) (io : Io) : Nat → Locals → State σ → Except Fault (State σ)
  | 0, _, _ => .error .diverge
  | fuel + 1, l, s => do
    let sv ← s.server? p
    if sv.stage = 5 then relayUp cipher p io l.remote l.r s
    else if sv.stage = 0 then greet p io s
    else if sv.stage = 1 then
      match ← request cfg p io l s with
      | .done s => pure s
      | .again l s => serverRecvLoop p io fuel l s
    else serverRecvLoop p io fuel l s

/-- Store the buffer `buf` points into back into its record. -/
def setBuffer (s : State σ) (p : Ptr) (owner : Option Ptr) (b : Buf) : Except Fault (State σ) :=
  match owner with
  | none => do
    let sv ← s.server? p
    pure (s.setServer p { sv with buf := some b })
  | some q => do
    let rm ← s.remote? q
    pure (s.setRemote q { rm with buf := some b })

/-- `server_recv_cb`: one `recv` from the client into `buf`, then the loop. -/
def serverRecvCb (p : Ptr) (io : Io) (s : State σ) : Except Fault (State σ) := do
  let sv ← s.server? p
  let remote := sv.remote
  match io.recv with
  | .error .eagain => pure s
  | .error _ => s.teardown remote (some p)
  | .data bytes =>
    let bytes := bytes.take bufSize
    if bytes = [] then s.teardown remote (some p)
    else
      let b ← bufferOf s p remote
      let b ← b.store 0 bytes
      let s ← setBuffer s p remote b
      serverRecvLoop cipher cfg p io 2 ⟨remote, remote, 0, bytes.length⟩ (s.emit (.recv sv.fd bytes))

/-- `server_send_cb`: flush the residual of `server->buf` to the client. -/
def serverSendCb (p : Ptr) (io : Io) (s : State σ) : Except Fault (State σ) := do
  let sv ← s.server? p
  let remote := sv.remote
  if sv.bufLen = 0 then s.teardown remote (some p)
  else
    let b ← deref sv.buf
    match ← s.send sv.fd .relay b sv.bufIdx sv.bufLen io.send with
    | (.error e, s) => if e ≠ .eagain then s.teardown remote (some p) else pure s
    | (.ok k, s) =>
      if (k : Int) < sv.bufLen then
        pure (s.setServer p { sv with bufLen := sv.bufLen - k, bufIdx := sv.bufIdx + k })
      else
        let s := (s.setServer p { sv with bufLen := 0, bufIdx := 0 }).stop (.serverSend p)
        let q ← deref remote
        let _ ← s.remote? q
        pure (s.start (.remoteRecv q))

/-- The tail of `remote_recv_cb`: send the `r` bytes at the start of `server->buf`. -/
def deliver (p q : Ptr) (io : Io) (r : Int) (s : State σ) : Except Fault (State σ) := do
  let sv ← s.server? p
  let b ← deref sv.buf
  match ← s.send sv.fd .relay b 0 r io.send with
  | (.error .eagain, s) =>
    pure (((s.setServer p { sv with bufLen := r, bufIdx := 0 }).stop (.remoteRecv q)).start
      (.serverSend p))
  | (.error _, s) => s.teardown (some q) (some p)
  | (.ok k, s) =>
    if (k : Int) < r then
      pure (((s.setServer p { sv with bufLen := r - k, bufIdx := k }).stop (.remoteRecv q)).start
        (.serverSend p))
    else pure s

/-- `remote_recv_cb`: restart the idle timer, one `recv` from upstream into `server->buf`,
`ss_decrypt` unless direct, then `deliver`. -/
def remoteRecvCb (q : Ptr) (io : Io) (s : State σ) : Except Fault (State σ) := do
  let rm ← s.remote? q
  let s := s.timerAgain (.idleTimer q) (idleRepeat cfg)
  let p ← deref rm.server
  let sv ← s.server? p
  match io.recv with
  | .error .eagain => pure s
  | .error _ => s.teardown (some q) (some p)
  | .data bytes =>
    let bytes := bytes.take bufSize
    if bytes = [] then s.teardown (some q) (some p)
    else
      let b ← deref sv.buf
      let b ← b.store 0 bytes
      let s := (s.setServer p { sv with buf := some b }).emit (.recv rm.fd bytes)
      if !rm.direct then
        match ssDecrypt cipher sv.dCtx bytes with
        | none =>
          let s ← s.free b.ptr
          (s.setServer p { sv with buf := none }).teardown (some q) (some p)
        | some (plain, ctx) =>
          let s := (s.setServer p { sv with buf := some (b.load plain), dCtx := ctx }).emit
            (.hand sv.fd bytes plain)
          deliver p q io plain.length s
      else deliver p q io bytes.length (s.emit (.hand sv.fd bytes bytes))

/-- The sending half of `remote_send_cb`: flush the residual of `remote->buf` upstream. -/
def flushUp (q : Ptr) (server : Option Ptr) (io : Io) (s : State σ) : Except Fault (State σ) := do
  let rm ← s.remote? q
  if rm.bufLen = 0 then s.teardown (some q) server
  else
    let b ← deref rm.buf
    match ← s.send rm.fd .relay b rm.bufIdx rm.bufLen io.send with
    | (.error e, s) => if e ≠ .eagain then s.teardown (some q) server else pure s
    | (.ok k, s) =>
      if (k : Int) < rm.bufLen then
        pure (s.setRemote q { rm with bufLen := rm.bufLen - k, bufIdx := rm.bufIdx + k })
      else
        let s := (s.setRemote q { rm with bufLen := 0, bufIdx := 0 }).stop (.remoteSend q)
        let p ← deref server
        let _ ← s.server? p
        pure (s.start (.serverRecv p))

/-- `remote_send_cb`: the first write-ready event completes the connect (`getpeername`). -/
def remoteSendCb (q : Ptr) (io : Io) (s : State σ) : Except Fault (State σ) := do
  let rm ← s.remote? q
  let server := rm.server
  if !rm.connected then
    if io.peer then
      let s := (((s.setRemote q { rm with connected := true }).stop (.connectTimer q)).start
        (.idleTimer q)).start (.remoteRecv q)
      if rm.bufLen = 0 then
        let p ← deref server
        let _ ← s.server? p
        pure ((s.stop (.remoteSend q)).start (.serverRecv p))
      else flushUp q server io s
    else s.teardown (some q) server
  else flushUp q server io s

/-- `remote_timeout_cb`, for either timer of the remote. -/
def remoteTimeoutCb (q : Ptr) (s : State σ) : Except Fault (State σ) := do
  let rm ← s.remote? q
  s.teardown (some q) rm.server

/-- libev runs the callback of a started watcher; an expired timer without repeat is stopped
first. -/
def dispatch (w : Watcher) (io : Io) (s : State σ) : Except Fault (State σ) :=
  match w with
  | .serverRecv p => serverRecvCb cipher cfg p io s
  | .serverSend p => serverSendCb p io s
  | .remoteRecv q => remoteRecvCb cipher cfg q io s
  | .remoteSend q => remoteSendCb q io s
  | .connectTimer q => remoteTimeoutCb q (s.stop (.connectTimer q))
  | .idleTimer q => remoteTimeoutCb q (s.timerAgain (.idleTimer q) (idleRepeat cfg))

end Callbacks

end Shadowsocks.Local
