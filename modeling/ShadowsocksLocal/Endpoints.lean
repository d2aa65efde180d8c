import ShadowsocksLocal.Basic
import Mathlib.Tactic.Simps.Basic

/-! Heap, descriptor and watcher primitives, and the endpoint lifecycle of `local.c`:
`new_server`, `new_remote`, `connect_to_remote`, `free_*` and `close_and_free_*`. A read of a
freed record and a `free` of a block that is not live are faults, so a run without faults
frees nothing twice. -/
namespace Shadowsocks.Local

variable {σ : Type}

namespace State

@[simps]
def setServer (s : State σ) (p : Ptr) (sv : Server σ) : State σ :=
  { s with servers := Function.update s.servers p (some sv) }

@[simps]
def setRemote (s : State σ) (q : Ptr) (rm : Remote) : State σ :=
  { s with remotes := Function.update s.remotes q (some rm) }

/-- `ev_io_start`/`ev_timer_start`. -/
@[simps]
def start (s : State σ) (w : Watcher) : State σ :=
  { s with active := Function.update s.active w true }

/-- `ev_io_stop`/`ev_timer_stop`. -/
@[simps]
def stop (s : State σ) (w : Watcher) : State σ :=
  { s with active := Function.update s.active w false }

@[simps]
def emit (s : State σ) (e : Event) : State σ :=
  { s with trace := s.trace ++ [e] }

/-- `malloc`: the next address becomes a live block. Allocation does not fail here: `local.c`
never checks the result, and a NULL from `malloc` is outside the model. -/
@[simps]
def malloc (s : State σ) : Ptr × State σ :=
  (s.next, { s with heap := Function.update s.heap s.next true, next := s.next + 1 })

/-- `free`; releasing a block that is not live is a double free. -/
def free (s : State σ) (b : Ptr) : Except Fault (State σ) :=
  if s.heap b then .ok { s with heap := Function.update s.heap b false } else .error .dangling

/-- A descriptor returned by `accept` or `socket`. -/
@[simps]
def openFd (s : State σ) : Fd × State σ :=
  (s.next, { s with fds := Function.update s.fds s.next true, next := s.next + 1 })

/-- `close(fd)`. -/
@[simps]
def close (s : State σ) (fd : Fd) : State σ :=
  { s with fds := Function.update s.fds fd false, trace := s.trace ++ [.close fd] }

def server? (s : State σ) (p : Ptr) : Except Fault (Server σ) :=
  match s.servers p with
  | some sv => .ok sv
  | none => .error .dangling

def remote? (s : State σ) (q : Ptr) : Except Fault Remote :=
  match s.remotes q with
  | some rm => .ok rm
  | none => .error .dangling

end State

/-- Following a pointer that may be NULL. -/
def deref {α : Type} : Option α → Except Fault α
  | some a => .ok a
  | none => .error .nullDeref

@[simp] theorem ok_bind {ε α β : Type} (a : α) (f : α → Except ε β) : (Except.ok a >>= f) = f a := rfl

@[simp] theorem error_bind {ε α β : Type} (e : ε) (f : α → Except ε β) :
    (Except.error e >>= f) = Except.error e := rfl

@[simp] theorem throw_bind {ε α β : Type} (e : ε) (f : α → Except ε β) :
    (throw e >>= f : Except ε β) = throw e := rfl

theorem bind_eq_ok {ε α β : Type} {x : Except ε α} {f : α → Except ε β} {b : β} :
    x >>= f = .ok b ↔ ∃ a, x = .ok a ∧ f a = .ok b := by
  cases x <;> simp [bind, Except.bind]

@[simp] theorem pure_eq_ok {ε α : Type} {a b : α} : (pure a : Except ε α) = .ok b ↔ a = b := by
  simp [pure, Except.pure]

@[simp] theorem throw_ne_ok {ε α : Type} {e : ε} {b : α} : (throw e : Except ε α) ≠ .ok b := by
  simp [throw, throwThe, MonadExceptOf.throw, Except.error]

@[simp] theorem deref_eq_ok {α : Type} {x : Option α} {a : α} : deref x = .ok a ↔ x = some a := by
  cases x <;> simp [deref]

namespace State

@[simp] theorem server?_eq_ok {s : State σ} {p : Ptr} {sv : Server σ} :
    s.server? p = .ok sv ↔ s.servers p = some sv := by
  unfold server?; split <;> simp_all

@[simp] theorem remote?_eq_ok {s : State σ} {q : Ptr} {rm : Remote} :
    s.remote? q = .ok rm ↔ s.remotes q = some rm := by
  unfold remote?; split <;> simp_all

theorem free_eq_ok {s s' : State σ} {b : Ptr} :
    s.free b = .ok s' ↔ s.heap b = true ∧ s' = { s with heap := Function.update s.heap b false } := by
  unfold free
  split
  · next h => simp only [Except.ok.injEq, h, true_and]; exact eq_comm
  · next h => simp [h]

theorem server?_of {s : State σ} {p : Ptr} {sv : Server σ} (hp : s.servers p = some sv) :
    s.server? p = .ok sv :=
  server?_eq_ok.2 hp

theorem remote?_of {s : State σ} {q : Ptr} {rm : Remote} (hq : s.remotes q = some rm) :
    s.remote? q = .ok rm :=
  remote?_eq_ok.2 hq

end State

section Lifecycle

variable (cipher : Cipher σ) (cfg : Config)

/-- `new_server(fd, method)`: the record, its buffer, two ctx blocks, and the two cipher
contexts when `method` is nonzero; the record joins `connections`. -/
def newServer (s : State σ) (fd : Fd) (fresh : Nat → Byte) : Ptr × State σ :=
  let (p, s) := s.malloc
  let (b, s) := s.malloc
  let (rc, s) := s.malloc
  let (sc, s) := s.malloc
  let (ctx, s) : (Option (Ptr × σ) × Option (Ptr × σ)) × State σ :=
    if cfg.method ≠ 0 then
      let (e, s) := s.malloc
      let (d, s) := s.malloc
      ((some (e, cipher.init true), some (d, cipher.init false)), s)
    else ((none, none), s)
  let sv : Server σ := ⟨fd, some ⟨b, bufSize, fresh⟩, 0, 0, 0, ctx.1, ctx.2, rc, sc, none⟩
  (p, { s.setServer p sv with connections := s.connections ++ [p] })

/-- `new_remote(fd, timeout)`: the record, its buffer and two ctx blocks. The timers are
initialised, not started. -/
def newRemote (s : State σ) (fd : Fd) (fresh : Nat → Byte) : Ptr × Remote × State σ :=
  let (q, s) := s.malloc
  let (b, s) := s.malloc
  let (rc, s) := s.malloc
  let (sc, s) := s.malloc
  (q, ⟨fd, some ⟨b, bufSize, fresh⟩, 0, 0, false, false, rc, sc, none, none⟩, s)

/-- `connect_to_remote(listener, host, port)`; `dest = none` is the `NULL, NULL` call. -/
def connectToRemote (s : State σ) (io : Io) (dest : Option (List Byte × List Byte)) :
    Except Fault (Option Ptr × State σ) := do
  if cfg.remoteNum = 0 then throw .divByZero
  let index := io.rand % cfg.remoteNum
  let query := match dest with
    | none => Dest.relay index
    | some (host, port) => Dest.named host port
  if !io.resolve query then return (none, s)
  let (ai, s) := s.malloc
  if !io.socket then
    let s ← s.free ai
    return (none, s)
  let (fd, s) := s.openFd
  let (q, rm, s) := newRemote s fd io.fresh
  return (some q, s.setRemote q { rm with addrInfo := some ai })

/-- `accept_cb`. -/
def acceptCb (s : State σ) (io : Io) : State σ :=
  if io.accept then
    let (fd, s) := s.openFd
    let (p, s) := newServer cipher cfg s fd io.fresh
    s.start (.serverRecv p)
  else s

end Lifecycle

namespace State

/-- `free` of an optional block (`if (x != NULL) free(x)`). -/
def freeOpt (s : State σ) : Option Ptr → Except Fault (State σ)
  | none => .ok s
  | some b => s.free b

/-- `if (remote->server != NULL) remote->server->remote = NULL;` -/
def detachServer (s : State σ) : Option Ptr → Except Fault (State σ)
  | none => .ok s
  | some p => do
    let sv ← s.server? p
    pure (s.setServer p { sv with remote := none })

/-- `if (server->remote != NULL) server->remote->server = NULL;` -/
def detachRemote (s : State σ) : Option Ptr → Except Fault (State σ)
  | none => .ok s
  | some q => do
    let rm ← s.remote? q
    pure (s.setRemote q { rm with server := none })

/-- `free_remote`: detach the server's back-pointer, then release every block. -/
def freeRemote (s : State σ) (q : Ptr) : Except Fault (State σ) := do
  let rm ← s.remote? q
  let s ← s.detachServer rm.server
  let s ← s.freeOpt (rm.buf.map Buf.ptr)
  let s ← s.freeOpt rm.addrInfo
  let s ← s.free rm.recvCtx
  let s ← s.free rm.sendCtx
  let s ← s.free q
  pure { s with remotes := Function.update s.remotes q none }

/-- `close_and_free_remote`: NULL is tolerated. -/
def closeAndFreeRemote (s : State σ) : Option Ptr → Except Fault (State σ)
  | none => .ok s
  | some q => do
    let rm ← s.remote? q
    let s := (((s.stop (.connectTimer q)).stop (.idleTimer q)).stop (.remoteSend q)).stop (.remoteRecv q)
    (s.close rm.fd).freeRemote q

/-- `free_server`: leave `connections`, detach the remote's back-pointer, release every block. -/
def freeServer (s : State σ) (p : Ptr) : Except Fault (State σ) := do
  let sv ← s.server? p
  let s := { s with connections := s.connections.erase p }
  let s ← s.detachRemote sv.remote
  let s ← s.freeOpt (sv.eCtx.map Prod.fst)
  let s ← s.freeOpt (sv.dCtx.map Prod.fst)
  let s ← s.freeOpt (sv.buf.map Buf.ptr)
  let s ← s.free sv.recvCtx
  let s ← s.free sv.sendCtx
  let s ← s.free p
  pure { s with servers := Function.update s.servers p none }

/-- `close_and_free_server`: NULL is tolerated. -/
def closeAndFreeServer (s : State σ) : Option Ptr → Except Fault (State σ)
  | none => .ok s
  | some p => do
    let sv ← s.server? p
    ((s.stop (.serverSend p)).stop (.serverRecv p) |>.close sv.fd).freeServer p

/-- The pair of calls every fatal path makes: `close_and_free_remote(remote)` then
`close_and_free_server(server)`. -/
def teardown (s : State σ) (q p : Option Ptr) : Except Fault (State σ) := do
  let s ← s.closeAndFreeRemote q
  s.closeAndFreeServer p

end State

end Shadowsocks.Local
